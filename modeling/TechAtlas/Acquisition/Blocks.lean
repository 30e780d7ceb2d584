import TechAtlas.Acquisition.Address

set_option autoImplicit false

/- The blocks that the address policy names, against the octets it tests: which
IPv4 addresses are refused, and which IPv4 addresses an IPv6 address can carry. -/
namespace TechAtlas.Acquisition

section Blocks

def Ipv4Addr.toNat (address : Ipv4Addr) : Nat :=
  (((address.octets.get 0).toNat * 256 + (address.octets.get 1).toNat) * 256 +
    (address.octets.get 2).toNat) * 256 + (address.octets.get 3).toNat

/-- A block `a.b.c.0/length`. -/
structure Ipv4Block where
  a : Nat
  b : Nat
  c : Nat
  length : Nat
  deriving DecidableEq, Repr

def Ipv4Block.base (block : Ipv4Block) : Nat :=
  ((block.a * 256 + block.b) * 256 + block.c) * 256

/-- The first `length` bits are the ones of the block. -/
def Ipv4Block.Contains (block : Ipv4Block) (address : Ipv4Addr) : Prop :=
  address.toNat / 2 ^ (32 - block.length) = block.base / 2 ^ (32 - block.length)

instance (block : Ipv4Block) (address : Ipv4Addr) : Decidable (block.Contains address) :=
  inferInstanceAs (Decidable (_ = _))

def protocolBlock : Ipv4Block := ⟨192, 0, 0, 24⟩

def documentationBlock : Ipv4Block := ⟨192, 0, 2, 24⟩

/-- The blocks that the comments beside the tests of `is_public_ipv4` name. -/
def namedBlocks : List Ipv4Block := [
  ⟨0, 0, 0, 8⟩, ⟨10, 0, 0, 8⟩, ⟨100, 64, 0, 10⟩, ⟨127, 0, 0, 8⟩, ⟨169, 254, 0, 16⟩,
  ⟨172, 16, 0, 12⟩, protocolBlock, documentationBlock, ⟨192, 168, 0, 16⟩, ⟨198, 18, 0, 15⟩,
  ⟨198, 51, 100, 24⟩, ⟨203, 0, 113, 24⟩, ⟨224, 0, 0, 3⟩]

/-- The address is in a named block. -/
def Ipv4Addr.IsNamed (address : Ipv4Addr) : Prop :=
  ∃ block ∈ namedBlocks, block.Contains address

/-- The address is in `192.2.0.0/16`, or in a part of `192.0.0.0/16` that no block
is named for: the octet patterns are wider than their comments there. -/
def Ipv4Addr.IsSwept (address : Ipv4Addr) : Prop :=
  Ipv4Block.Contains ⟨192, 2, 0, 16⟩ address ∨
    (Ipv4Block.Contains ⟨192, 0, 0, 16⟩ address ∧ ¬protocolBlock.Contains address ∧
      ¬documentationBlock.Contains address)

instance (address : Ipv4Addr) : Decidable address.IsNamed :=
  inferInstanceAs (Decidable (∃ block ∈ namedBlocks, block.Contains address))

instance (address : Ipv4Addr) : Decidable address.IsSwept :=
  inferInstanceAs (Decidable (_ ∨ _))

end Blocks

section Octets

/-- The tests of `is_public_ipv4` on the values of the first three octets. -/
def IsRefused (a b c : Nat) : Prop :=
  a = 0 ∨ a = 10 ∨ (a = 100 ∧ 64 ≤ b ∧ b ≤ 127) ∨ a = 127 ∨ (a = 169 ∧ b = 254) ∨
    (a = 172 ∧ 16 ≤ b ∧ b ≤ 31) ∨ (a = 192 ∧ b = 0) ∨ (a = 192 ∧ b = 2) ∨ (a = 192 ∧ b = 168) ∨
    (a = 198 ∧ 18 ≤ b ∧ b ≤ 19) ∨ (a = 198 ∧ b = 51 ∧ c = 100) ∨ (a = 203 ∧ b = 0 ∧ c = 113) ∨
    224 ≤ a

theorem isPublicIpv4_eq_false_iff (octets : Vector UInt8 4) :
    isPublicIpv4 octets = false ↔
      IsRefused (octets.get 0).toNat (octets.get 1).toNat (octets.get 2).toNat := by
  simp only [isPublicIpv4, IsRefused, Bool.not_eq_false', Bool.or_eq_true, Bool.and_eq_true,
    beq_iff_eq, decide_eq_true_eq, ← UInt8.toNat_inj, UInt8.le_iff_toNat_le, or_assoc, and_assoc]
  rfl

variable (address : Ipv4Addr) {block : Ipv4Block}

/-- A prefix that ends in the first octet is a matter of that octet. -/
theorem contains_first (short : block.length ≤ 8) (second : block.b < 256)
    (third : block.c < 256) :
    block.Contains address ↔
      (address.octets.get 0).toNat / 2 ^ (8 - block.length) = block.a / 2 ^ (8 - block.length) := by
  have b := (address.octets.get 1).toNat_lt
  have c := (address.octets.get 2).toNat_lt
  have d := (address.octets.get 3).toNat_lt
  have split : 2 ^ (32 - block.length) = 2 ^ 24 * 2 ^ (8 - block.length) := by
    rw [← Nat.pow_add]
    congr 1
    omega
  have own : address.toNat / 2 ^ 24 = (address.octets.get 0).toNat := by
    unfold Ipv4Addr.toNat
    omega
  have base : block.base / 2 ^ 24 = block.a := by
    unfold Ipv4Block.base
    omega
  rw [Ipv4Block.Contains, split, ← Nat.div_div_eq_div_mul, ← Nat.div_div_eq_div_mul, own, base]

theorem contains_second (short : block.length ≤ 16) (third : block.c < 256) :
    block.Contains address ↔
      ((address.octets.get 0).toNat * 256 + (address.octets.get 1).toNat) / 2 ^ (16 - block.length) =
        (block.a * 256 + block.b) / 2 ^ (16 - block.length) := by
  have c := (address.octets.get 2).toNat_lt
  have d := (address.octets.get 3).toNat_lt
  have split : 2 ^ (32 - block.length) = 2 ^ 16 * 2 ^ (16 - block.length) := by
    rw [← Nat.pow_add]
    congr 1
    omega
  have own : address.toNat / 2 ^ 16 = (address.octets.get 0).toNat * 256 + (address.octets.get 1).toNat := by
    unfold Ipv4Addr.toNat
    omega
  have base : block.base / 2 ^ 16 = block.a * 256 + block.b := by
    unfold Ipv4Block.base
    omega
  rw [Ipv4Block.Contains, split, ← Nat.div_div_eq_div_mul, ← Nat.div_div_eq_div_mul, own, base]

theorem contains_third (whole : block.length = 24) :
    block.Contains address ↔
      ((address.octets.get 0).toNat * 256 + (address.octets.get 1).toNat) * 256 + (address.octets.get 2).toNat =
        (block.a * 256 + block.b) * 256 + block.c := by
  have d := (address.octets.get 3).toNat_lt
  simp only [Ipv4Block.Contains, Ipv4Block.base, Ipv4Addr.toNat, whole]
  omega

end Octets

section Exactness

variable (address : Ipv4Addr)

/-- The named blocks in the values of the first three octets. -/
theorem isNamed_iff : address.IsNamed ↔
    let a := (address.octets.get 0).toNat
    let b := (address.octets.get 1).toNat
    let c := (address.octets.get 2).toNat
    a = 0 ∨ a = 10 ∨ (a = 100 ∧ 64 ≤ b ∧ b ≤ 127) ∨ a = 127 ∨ (a = 169 ∧ b = 254) ∨
      (a = 172 ∧ 16 ≤ b ∧ b ≤ 31) ∨ (a = 192 ∧ b = 0 ∧ c = 0) ∨ (a = 192 ∧ b = 0 ∧ c = 2) ∨
      (a = 192 ∧ b = 168) ∨ (a = 198 ∧ 18 ≤ b ∧ b ≤ 19) ∨ (a = 198 ∧ b = 51 ∧ c = 100) ∨
      (a = 203 ∧ b = 0 ∧ c = 113) ∨ 224 ≤ a := by
  have a := (address.octets.get 0).toNat_lt
  have b := (address.octets.get 1).toNat_lt
  have c := (address.octets.get 2).toNat_lt
  simp only [Ipv4Addr.IsNamed, namedBlocks, protocolBlock, documentationBlock,
    List.exists_mem_cons_iff, List.not_mem_nil, false_and, exists_false, or_false]
  simp (disch := decide) only [contains_first, contains_second, contains_third]
  norm_num only
  repeat' apply or_congr
  all_goals omega

theorem isSwept_iff : address.IsSwept ↔
    let a := (address.octets.get 0).toNat
    let b := (address.octets.get 1).toNat
    let c := (address.octets.get 2).toNat
    (a = 192 ∧ b = 2) ∨ (a = 192 ∧ b = 0 ∧ c ≠ 0 ∧ c ≠ 2) := by
  have a := (address.octets.get 0).toNat_lt
  have b := (address.octets.get 1).toNat_lt
  have c := (address.octets.get 2).toNat_lt
  simp only [Ipv4Addr.IsSwept, protocolBlock, documentationBlock]
  simp (disch := decide) only [contains_second, contains_third]
  norm_num only
  omega

/-- What is refused is what is named, and the addresses swept along with it. -/
theorem isPublicAddress_eq_false_iff :
    isPublicAddress (.v4 address) = false ↔ address.IsNamed ∨ address.IsSwept := by
  rw [isNamed_iff, isSwept_iff]
  apply Iff.trans (isPublicIpv4_eq_false_iff address.octets)
  dsimp only [IsRefused]
  -- The patterns differ from the blocks where the first octet is 192.
  by_cases first : (address.octets.get 0).toNat = 192
  · simp only [first]
    norm_num
    omega
  · simp [first]

theorem not_isNamed_of_isSwept (swept : address.IsSwept) : ¬address.IsNamed := by
  rw [isSwept_iff] at swept
  rw [isNamed_iff]
  dsimp only at swept ⊢
  rcases swept with ⟨a, b⟩ | ⟨a, b, notProtocol, notDocumentation⟩
  · simp [a, b]
  · simp [a, b, notProtocol, notDocumentation]

/-- The policy refuses an address exactly when it is in a named block, other than
for the addresses swept along. -/
theorem isPublicAddress_exact_iff :
    (isPublicAddress (.v4 address) = false ↔ address.IsNamed) ↔ ¬address.IsSwept := by
  rw [isPublicAddress_eq_false_iff]
  constructor
  · intro precise swept
    exact not_isNamed_of_isSwept address swept (precise.mp (Or.inr swept))
  · intro kept
    constructor
    · intro refused
      exact refused.resolve_right kept
    · exact Or.inl

theorem isPublicAddress_not_exact :
    ¬∀ address : Ipv4Addr, isPublicAddress (.v4 address) = false ↔ address.IsNamed := by
  intro precise
  have swept : Ipv4Addr.IsSwept ⟨#v[192, 2, 0, 1]⟩ := by decide
  exact (isPublicAddress_exact_iff ⟨#v[192, 2, 0, 1]⟩).mp (precise _) swept

end Exactness

section Embeddings

/-- The ways in which an IPv6 address stands for an IPv4 address. -/
inductive Embedding
  | mapped
  | compatible
  | nat64
  | sixToFour
  deriving DecidableEq, Repr

def Ipv6Addr.lastOctets (address : Ipv6Addr) : Ipv4Addr :=
  let octets := address.octets
  ⟨#v[octets.get 12, octets.get 13, octets.get 14, octets.get 15]⟩

/-- The IPv4 address an address with the prefix of the embedding carries. -/
def Embedding.carried (address : Ipv6Addr) : Embedding → Option Ipv4Addr
  | .mapped => address.toIpv4Mapped
  | .compatible =>
      if address.octets.toList.take 12 = [0, 0, 0, 0, 0, 0, 0, 0, 0, 0, 0, 0] then
        some address.lastOctets
      else none
  | .nat64 =>
      if address.octets.toList.take 12 = [0, 0x64, 0xff, 0x9b, 0, 0, 0, 0, 0, 0, 0, 0] then
        some address.lastOctets
      else none
  | .sixToFour =>
      let octets := address.octets
      if octets.toList.take 2 = [0x20, 0x02] then
        some ⟨#v[octets.get 2, octets.get 3, octets.get 4, octets.get 5]⟩
      else none

theorem octet_of_take {octets : Vector UInt8 16} {start : List UInt8} {n : Nat}
    (same : octets.toList.take n = start) {i : Nat} (inStart : i < n) (bound : i < 16) :
    start[i]? = some octets[i] := by
  have inList : i < octets.toList.length := by
    rw [Vector.length_toList]
    exact bound
  rw [← same, List.getElem?_take_of_lt inStart, List.getElem?_eq_getElem inList,
    Vector.getElem_toList]

/-- An address of one of the prefixes without a test of its own is refused only as
the loopback or the unspecified address. -/
theorem isPublicAddress_v6 {address : Ipv6Addr} {n : Nat} {start : List UInt8}
    (same : address.octets.toList.take n = start) (two : 2 ≤ n)
    (unmapped : address.toIpv4Mapped = none)
    (first : start[0]? = some 0 ∨ (start[0]? = some 0x20 ∧ start[1]? = some 0x02)) :
    isPublicAddress (.v6 address) = (!address.isLoopback && !address.isUnspecified) := by
  have zeroth := octet_of_take same (show 0 < n by omega) (by decide)
  have next := octet_of_take same (show 1 < n by omega) (by decide)
  rw [zeroth, next] at first
  simp only [Option.some.injEq] at first
  simp only [isPublicAddress, unmapped, Ipv6Addr.isMulticast]
  rcases first with zero | ⟨sixToFour, other⟩
  · rw [zero]
    simp
  · have notLocal : ((0x20 : UInt8) &&& 0xfe == 0xfc) = false := by decide
    rw [sixToFour, other, notLocal]
    simp

theorem toIpv4Mapped_eq_none {address : Ipv6Addr} {n : Nat} {start : List UInt8}
    (same : address.octets.toList.take n = start) {i : Nat} (inStart : i < n) (bound : i < 12)
    (differs : start[i]? ≠ [0, 0, 0, 0, 0, 0, 0, 0, 0, 0, 0xff, 0xff][i]?) :
    address.toIpv4Mapped = none := by
  have own := octet_of_take same inStart (by omega)
  unfold Ipv6Addr.toIpv4Mapped
  dsimp only
  rw [if_neg]
  intro mapped
  exact differs (own.trans (octet_of_take mapped bound (by omega)).symm)

/-- An embedding without a branch of its own lets every address through but the
loopback and the unspecified one. -/
theorem isPublicAddress_unmapped {embedding : Embedding} {address : Ipv6Addr} {v : Ipv4Addr}
    (carries : embedding.carried address = some v) (unmapped : embedding ≠ .mapped) :
    isPublicAddress (.v6 address) = (!address.isLoopback && !address.isUnspecified) := by
  cases embedding with
  | mapped => exact absurd rfl unmapped
  | compatible =>
      simp only [Embedding.carried, Option.ite_none_right_eq_some] at carries
      have none := toIpv4Mapped_eq_none carries.1 (show 10 < 12 by omega) (by omega) (by decide)
      exact isPublicAddress_v6 carries.1 (by omega) none (Or.inl rfl)
  | nat64 =>
      simp only [Embedding.carried, Option.ite_none_right_eq_some] at carries
      have none := toIpv4Mapped_eq_none carries.1 (show 10 < 12 by omega) (by omega) (by decide)
      exact isPublicAddress_v6 carries.1 (by omega) none (Or.inl rfl)
  | sixToFour =>
      simp only [Embedding.carried, Option.ite_none_right_eq_some] at carries
      have none := toIpv4Mapped_eq_none carries.1 (show 0 < 2 by omega) (by omega) (by decide)
      exact isPublicAddress_v6 carries.1 (by omega) none (Or.inr ⟨rfl, rfl⟩)

theorem isPublicAddress_mapped {address : Ipv6Addr} {v : Ipv4Addr}
    (carries : Embedding.mapped.carried address = some v) :
    isPublicAddress (.v6 address) = isPublicAddress (.v4 v) := by
  have mapped : address.toIpv4Mapped = some v := carries
  simp only [isPublicAddress, mapped]

/-- An address that carries a refused IPv4 address is refused with it when it is a
mapped one, and otherwise only as `::1` or `::`. -/
theorem isPublicAddress_carried_iff {embedding : Embedding} {address : Ipv6Addr} {v : Ipv4Addr}
    (carries : embedding.carried address = some v) :
    (isPublicAddress (.v6 address) = true → isPublicAddress (.v4 v) = true) ↔
      embedding = .mapped ∨ isPublicAddress (.v4 v) = true ∨ address.isLoopback = true ∨
        address.isUnspecified = true := by
  by_cases mapped : embedding = .mapped
  · rw [mapped] at carries
    rw [isPublicAddress_mapped carries]
    simp [mapped]
  · rw [isPublicAddress_unmapped carries mapped]
    simp only [mapped, false_or, Bool.and_eq_true, Bool.not_eq_true', and_imp]
    cases address.isLoopback <;> cases address.isUnspecified <;> simp

theorem isPublicAddress_carried_loopback :
    (isPublicAddress (.v6 ⟨#v[0, 0, 0, 0, 0, 0, 0, 0, 0, 0, 0xff, 0xff, 127, 0, 0, 1]⟩) = true →
      isPublicAddress (.v4 ⟨#v[127, 0, 0, 1]⟩) = true) ∧
    ¬(isPublicAddress (.v6 ⟨#v[0x20, 0x02, 127, 0, 0, 1, 0, 0, 0, 0, 0, 0, 0, 0, 0, 1]⟩) = true →
      isPublicAddress (.v4 ⟨#v[127, 0, 0, 1]⟩) = true) := by
  have mapped : Embedding.mapped.carried
      ⟨#v[0, 0, 0, 0, 0, 0, 0, 0, 0, 0, 0xff, 0xff, 127, 0, 0, 1]⟩ =
        some ⟨#v[127, 0, 0, 1]⟩ := by decide
  have sixToFour : Embedding.sixToFour.carried
      ⟨#v[0x20, 0x02, 127, 0, 0, 1, 0, 0, 0, 0, 0, 0, 0, 0, 0, 1]⟩ =
        some ⟨#v[127, 0, 0, 1]⟩ := by decide
  constructor
  · exact (isPublicAddress_carried_iff mapped).mpr (Or.inl rfl)
  · rw [isPublicAddress_carried_iff sixToFour]
    decide

theorem isPublicAddress_carries_blocked :
    ¬∀ (embedding : Embedding) (address : Ipv6Addr) (v : Ipv4Addr),
      embedding.carried address = some v → isPublicAddress (.v6 address) = true →
        isPublicAddress (.v4 v) = true := by
  intro safe
  have reached := safe .nat64
    ⟨#v[0, 0x64, 0xff, 0x9b, 0, 0, 0, 0, 0, 0, 0, 0, 169, 254, 169, 254]⟩
    ⟨#v[169, 254, 169, 254]⟩ (by decide) (by decide)
  revert reached
  decide

end Embeddings

end TechAtlas.Acquisition
