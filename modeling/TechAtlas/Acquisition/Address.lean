import TechAtlas.Library.Text

set_option autoImplicit false

/- Addresses as DNS returns them, and which of them are safe to connect to. -/
namespace TechAtlas.Acquisition

open Library

structure Ipv4Addr where
  octets : Vector UInt8 4
  deriving DecidableEq, Repr

structure Ipv6Addr where
  octets : Vector UInt8 16
  deriving DecidableEq, Repr

inductive IpAddr
  | v4 (address : Ipv4Addr)
  | v6 (address : Ipv6Addr)
  deriving DecidableEq, Repr

structure SocketAddr where
  ip : IpAddr
  port : Nat
  deriving DecidableEq, Repr

section Standard

/-- The addresses `::ffff:a.b.c.d`. -/
def Ipv6Addr.toIpv4Mapped (address : Ipv6Addr) : Option Ipv4Addr :=
  let octets := address.octets
  if octets.toList.take 12 = [0, 0, 0, 0, 0, 0, 0, 0, 0, 0, 0xff, 0xff] then
    some ⟨#v[octets[12], octets[13], octets[14], octets[15]]⟩
  else none

def Ipv6Addr.isLoopback (address : Ipv6Addr) : Bool :=
  address.octets.toList == [0, 0, 0, 0, 0, 0, 0, 0, 0, 0, 0, 0, 0, 0, 0, 1]

def Ipv6Addr.isUnspecified (address : Ipv6Addr) : Bool :=
  address.octets.toList == [0, 0, 0, 0, 0, 0, 0, 0, 0, 0, 0, 0, 0, 0, 0, 0]

def Ipv6Addr.isMulticast (address : Ipv6Addr) : Bool := address.octets[0] == 0xff

def IpAddr.octets : IpAddr → List UInt8
  | .v4 address => address.octets.toList
  | .v6 address => address.octets.toList

/-- The derived order: IPv4 before IPv6, then byte by byte. -/
def IpAddr.le (left right : IpAddr) : Bool :=
  match left, right with
  | .v4 _, .v6 _ => true
  | .v6 _, .v4 _ => false
  | _, _ => decide (left.octets.map UInt8.toNat ≤ right.octets.map UInt8.toNat)

def Ipv4Addr.display (address : Ipv4Addr) : Text :=
  ['.'].intercalate (address.octets.toList.map fun octet => (toString octet.toNat).toList)

def segmentsOf : List UInt8 → List Nat
  | high :: low :: rest => (high.toNat * 256 + low.toNat) :: segmentsOf rest
  | _ => []

def Ipv6Addr.segments (address : Ipv6Addr) : List Nat := segmentsOf address.octets.toList

/-- Start and length of the first longest run of zero segments. -/
def longestZeroRun (segments : List Nat) : Nat × Nat :=
  (List.range segments.length).foldl (fun longest start =>
    let length := ((segments.drop start).takeWhile (· == 0)).length
    if longest.2 < length then (start, length) else longest) (0, 0)

def Ipv6Addr.display (address : Ipv6Addr) : Text :=
  match address.toIpv4Mapped with
  | some mapped => "::ffff:".toList ++ mapped.display
  | none =>
      let text := fun segments : List Nat => [':'].intercalate (segments.map (Nat.toDigits 16))
      let (start, length) := longestZeroRun address.segments
      if 1 < length then
        text (address.segments.take start) ++ "::".toList ++
          text (address.segments.drop (start + length))
      else text address.segments

def IpAddr.display : IpAddr → Text
  | .v4 address => address.display
  | .v6 address => address.display

end Standard

section Display

theorem intercalate_length (c : Char) {texts : List Text} {n : Nat}
    (bounded : ∀ text ∈ texts, text.length ≤ n) :
    ([c].intercalate texts).length ≤ texts.length * (n + 1) := by
  induction texts with
  | nil => exact Nat.zero_le _
  | cons text rest ih =>
      have own := bounded text List.mem_cons_self
      have later := ih fun other member => bounded other (List.mem_cons_of_mem text member)
      cases rest with
      | nil =>
          rw [List.intercalate_singleton, List.length_singleton]
          omega
      | cons next others =>
          have count : (text :: next :: others).length = (next :: others).length + 1 := rfl
          rw [List.intercalate_cons_cons, List.length_append, List.length_append,
            List.length_singleton, count, Nat.succ_mul]
          omega

theorem mem_intercalate {c : Char} {first second : Text} {rest : List Text} :
    c ∈ [c].intercalate (first :: second :: rest) := by
  rw [List.intercalate_cons_cons]
  simp

theorem decimal_length (octet : UInt8) : (toString octet.toNat).toList.length ≤ 3 := by
  have digits : (toString octet.toNat).toList = Nat.toDigits 10 octet.toNat := by
    change octet.toNat.repr.toList = _
    rw [Nat.repr_eq_ofList_toDigits, String.toList_ofList]
  rw [digits, Nat.length_toDigits_le_iff (by decide) (by decide)]
  have bounded := octet.toNat_lt
  omega

theorem Ipv4Addr.display_length (address : Ipv4Addr) : address.display.length ≤ 16 := by
  have decimals : ∀ text ∈ address.octets.toList.map fun octet => (toString octet.toNat).toList,
      text.length ≤ 3 := by
    intro text member
    obtain ⟨octet, _, rfl⟩ := List.mem_map.mp member
    exact decimal_length octet
  have bounded := intercalate_length '.' decimals
  rw [List.length_map, Vector.length_toList] at bounded
  exact bounded

theorem segmentsOf_length (octets : List UInt8) : (segmentsOf octets).length ≤ octets.length := by
  induction octets using segmentsOf.induct with
  | case1 high low rest ih =>
      simp only [segmentsOf, List.length_cons]
      omega
  | case2 octets other =>
      rw [segmentsOf]
      · exact Nat.zero_le _
      · exact other

theorem segmentsOf_lt {octets : List UInt8} {segment : Nat} (member : segment ∈ segmentsOf octets) :
    segment < 16 ^ 4 := by
  induction octets using segmentsOf.induct with
  | case1 high low rest ih =>
      rcases List.mem_cons.mp member with rfl | later
      · have first := high.toNat_lt
        have second := low.toNat_lt
        omega
      · exact ih later
  | case2 octets other =>
      rw [segmentsOf] at member
      · cases member
      · exact other

theorem segmentsText_length (octets : List UInt8) {segments : List Nat}
    (part : segments.Sublist (segmentsOf octets)) :
    ([':'].intercalate (segments.map (Nat.toDigits 16))).length ≤ octets.length * 5 := by
  have digits : ∀ text ∈ segments.map (Nat.toDigits 16), text.length ≤ 4 := by
    intro text member
    obtain ⟨segment, inSegments, rfl⟩ := List.mem_map.mp member
    rw [Nat.length_toDigits_le_iff (by decide) (by decide)]
    exact segmentsOf_lt (part.subset inSegments)
  have bounded := intercalate_length ':' digits
  rw [List.length_map] at bounded
  have few := le_trans part.length_le (segmentsOf_length octets)
  omega

theorem Ipv6Addr.display_length (address : Ipv6Addr) : address.display.length ≤ 256 := by
  have octets : address.octets.toList.length = 16 := Vector.length_toList
  unfold Ipv6Addr.display
  cases address.toIpv4Mapped with
  | some mapped =>
      have short := mapped.display_length
      have known : "::ffff:".toList.length = 7 := rfl
      dsimp only
      rw [List.length_append]
      omega
  | none =>
      dsimp only
      split
      · have before := segmentsText_length address.octets.toList
          (List.take_sublist (longestZeroRun address.segments).1 address.segments)
        have after := segmentsText_length address.octets.toList
          (List.drop_sublist ((longestZeroRun address.segments).1 +
            (longestZeroRun address.segments).2) address.segments)
        have known : "::".toList.length = 2 := rfl
        rw [List.length_append, List.length_append]
        omega
      · have whole := segmentsText_length address.octets.toList
          (List.Sublist.refl address.segments)
        omega

theorem segmentsOf_two (octets : List UInt8) (enough : 4 ≤ octets.length) :
    ∃ first second rest, segmentsOf octets = first :: second :: rest := by
  rcases octets with _ | ⟨a, _ | ⟨b, _ | ⟨c, _ | ⟨d, rest⟩⟩⟩⟩
  · cases enough
  · simp at enough
  · simp at enough
  · simp at enough
  · exact ⟨_, _, segmentsOf rest, rfl⟩

theorem Ipv6Addr.mem_display (address : Ipv6Addr) : ':' ∈ address.display := by
  unfold Ipv6Addr.display
  cases address.toIpv4Mapped with
  | some mapped => exact List.mem_append_left _ (by decide)
  | none =>
      dsimp only
      split
      · exact List.mem_append_left _ (List.mem_append_right _ (by decide))
      · have octets : address.octets.toList.length = 16 := Vector.length_toList
        obtain ⟨first, second, rest, segments⟩ :=
          segmentsOf_two address.octets.toList (by omega)
        rw [Ipv6Addr.segments, segments]
        exact mem_intercalate

theorem Ipv4Addr.mem_display (address : Ipv4Addr) : '.' ∈ address.display := by
  have octets : address.octets.toList.length = 4 := Vector.length_toList
  unfold Ipv4Addr.display
  rcases found : address.octets.toList with _ | ⟨a, _ | ⟨b, rest⟩⟩
  · rw [found] at octets
    cases octets
  · rw [found] at octets
    simp at octets
  · exact mem_intercalate

/-- An address is displayed as a short text that is not blank. -/
theorem IpAddr.display_bounded (address : IpAddr) :
    trim address.display ≠ [] ∧ address.display.length ≤ 256 := by
  cases address with
  | v4 address =>
      exact ⟨trim_ne_nil address.mem_display (by decide),
        le_trans address.display_length (by decide)⟩
  | v6 address => exact ⟨trim_ne_nil address.mem_display (by decide), address.display_length⟩

theorem plain_toDigits {base n : Nat} (base_pos : 1 < base) (few : base ≤ 16) :
    ∀ c ∈ Nat.toDigits base n, isWhitespace c = false := by
  have digit : ∀ d < 16, isWhitespace (Nat.digitChar d) = false := by decide
  induction n using Nat.strongRecOn with
  | _ n ih =>
      intro c member
      rw [Nat.toDigits_eq_if base_pos] at member
      split at member
      · rw [List.mem_singleton.mp member]
        rename_i small
        exact digit n (by omega)
      · rename_i large
        rcases List.mem_append.mp member with front | last
        · exact ih (n / base) (Nat.div_lt_self (by omega) base_pos) c front
        · rw [List.mem_singleton.mp last]
          have small := Nat.mod_lt n (show 0 < base by omega)
          exact digit (n % base) (by omega)

theorem plain_intercalate {separator : Char} (plain : isWhitespace separator = false)
    {texts : List Text} (each : ∀ text ∈ texts, ∀ c ∈ text, isWhitespace c = false) :
    ∀ c ∈ [separator].intercalate texts, isWhitespace c = false := by
  induction texts with
  | nil =>
      intro c member
      cases member
  | cons text rest ih =>
      have own := each text List.mem_cons_self
      have later := ih fun other member => each other (List.mem_cons_of_mem text member)
      cases rest with
      | nil =>
          rw [List.intercalate_singleton]
          exact own
      | cons next others =>
          rw [List.intercalate_cons_cons]
          intro c member
          simp only [List.mem_append, List.mem_singleton] at member
          rcases member with (inText | isSeparator) | inRest
          · exact own c inText
          · rw [isSeparator]
            exact plain
          · exact later c inRest

theorem Ipv4Addr.plain_display (address : Ipv4Addr) :
    ∀ c ∈ address.display, isWhitespace c = false := by
  apply plain_intercalate (by decide)
  intro text member
  obtain ⟨octet, _, rfl⟩ := List.mem_map.mp member
  have digits : (toString octet.toNat).toList = Nat.toDigits 10 octet.toNat := Nat.toList_repr
  rw [digits]
  exact plain_toDigits (by decide) (by decide)

theorem plain_segments (segments : List Nat) :
    ∀ c ∈ [':'].intercalate (segments.map (Nat.toDigits 16)), isWhitespace c = false := by
  apply plain_intercalate (by decide)
  intro text member
  obtain ⟨segment, _, rfl⟩ := List.mem_map.mp member
  exact plain_toDigits (by decide) (by decide)

theorem Ipv6Addr.plain_display (address : Ipv6Addr) :
    ∀ c ∈ address.display, isWhitespace c = false := by
  have known : ∀ c ∈ "::ffff:".toList, isWhitespace c = false :=
    forall_mem_of_all (by decide +kernel)
  have colons : ∀ c ∈ "::".toList, isWhitespace c = false := forall_mem_of_all (by decide +kernel)
  intro c member
  unfold Ipv6Addr.display at member
  cases mapped : address.toIpv4Mapped with
  | some v4 =>
      rw [mapped] at member
      rcases List.mem_append.mp member with tag | own
      · exact known c tag
      · exact v4.plain_display c own
  | none =>
      rw [mapped] at member
      dsimp only at member
      split at member
      · simp only [List.mem_append] at member
        rcases member with (before | between) | after
        · exact plain_segments _ c before
        · exact colons c between
        · exact plain_segments _ c after
      · exact plain_segments _ c member

/-- An address is displayed without whitespace. -/
theorem IpAddr.plain_display (address : IpAddr) :
    ∀ c ∈ address.display, isWhitespace c = false := by
  cases address with
  | v4 address => exact address.plain_display
  | v6 address => exact address.plain_display

end Display

section Public

/-- The ranges `is_public_ipv4` excludes by their first three octets. -/
def isPublicIpv4 (octets : Vector UInt8 4) : Bool :=
  let a := octets[0]
  let b := octets[1]
  let c := octets[2]
  !(a == 0 ||
    a == 10 ||
    (a == 100 && 64 ≤ b && b ≤ 127) ||
    a == 127 ||
    (a == 169 && b == 254) ||
    (a == 172 && 16 ≤ b && b ≤ 31) ||
    (a == 192 && b == 0) ||
    (a == 192 && b == 2) ||
    (a == 192 && b == 168) ||
    (a == 198 && 18 ≤ b && b ≤ 19) ||
    (a == 198 && b == 51 && c == 100) ||
    (a == 203 && b == 0 && c == 113) ||
    224 ≤ a)

def isPublicAddress : IpAddr → Bool
  | .v4 address => isPublicIpv4 address.octets
  | .v6 address =>
      match address.toIpv4Mapped with
      | some mapped => isPublicIpv4 mapped.octets
      | none =>
          let octets := address.octets
          !address.isLoopback &&
            !address.isUnspecified &&
            !address.isMulticast &&
            !(octets[0] &&& 0xfe == 0xfc) &&
            !(octets[0] == 0xfe && octets[1] &&& 0xc0 == 0x80) &&
            !(octets[0] == 0x20 && octets[1] == 0x01 && octets[2] == 0x0d && octets[3] == 0xb8)

example : isPublicAddress (.v4 ⟨#v[93, 184, 216, 34]⟩) = true := by decide

end Public

section Safety

inductive DnsResolverError
  | lookup (host : Text)
  | noAddresses (host : Text)
  deriving DecidableEq, Repr

inductive DnsSafetyError
  | resolution (source : DnsResolverError)
  | timeout
  | blockedAddress (host : Text) (address : IpAddr)
  deriving DecidableEq, Repr

def DnsResolverError.message : DnsResolverError → Text
  | .lookup host => "DNS lookup failed for ".toList ++ host
  | .noAddresses host => "DNS lookup returned no addresses for ".toList ++ host

def DnsSafetyError.message : DnsSafetyError → Text
  | .resolution source => source.message
  | .timeout => "DNS resolution timed out".toList
  | .blockedAddress host address =>
      "DNS resolution for ".toList ++ host ++ " included blocked address ".toList ++
        address.display

/-- The first address that is not public is reported. -/
def validateAddresses (host : Text) : List SocketAddr → Except DnsSafetyError Unit
  | [] => .ok ()
  | address :: rest =>
      if isPublicAddress address.ip then validateAddresses host rest
      else .error (.blockedAddress host address.ip)

theorem validateAddresses_eq_ok {host : Text} {addresses : List SocketAddr}
    (success : validateAddresses host addresses = .ok ()) :
    ∀ address ∈ addresses, isPublicAddress address.ip = true := by
  induction addresses with
  | nil => exact fun _ member => nomatch member
  | cons address rest ih =>
      rw [validateAddresses] at success
      split at success
      · rename_i safe
        intro other member
        rcases List.mem_cons.mp member with rfl | inRest
        · exact safe
        · exact ih success other inRest
      · cases success

end Safety

end TechAtlas.Acquisition
