import TechAtlas.Url

set_option autoImplicit false

/- Reading a canonical domain again. The url crate is assumed to follow the
WHATWG host rules, which keep empty labels and look for a number in the last
label, or in the one before it when the last is empty. -/
namespace TechAtlas.Domains

open Library

section Rules

/-- ASCII without the forbidden domain code points and without capitals. -/
def isDomainChar (c : Char) : Bool :=
  decide (0x20 < c.toNat) && decide (c.toNat < 0x7F) && !c.isUpper &&
    !("#%/:<>?@[\\]^|".toList.contains c)

/-- The crate accepts the input as an `http` or `https` URL with this host. -/
def HostOf (crate : UrlCrate) (input host : Text) : Prop :=
  ∃ url, crate.parse input = some url ∧ isHttpScheme url.scheme = true ∧
    url.host = some (.domain host)

/-- What the development assumes of the url crate. A host that was returned once
is a host again, also without a dot at its end, unless it then ends in a number. -/
structure WhatwgHosts (crate : UrlCrate) : Prop where
  present : ∀ {input host}, HostOf crate input host → host ≠ []
  plain : ∀ {input host}, HostOf crate input host → ∀ c ∈ host, isDomainChar c = true
  notNumeric : ∀ {input host}, HostOf crate input host → endsInNumber host = false
  again : ∀ {input host name}, HostOf crate input host → host = name ∨ host = name ++ ['.'] →
    name ≠ [] → endsInNumber name = false →
    ∃ url, crate.parse ("https://".toList ++ name) = some url ∧ url.scheme = "https".toList ∧
      url.username = [] ∧ url.password = none ∧ url.fragment = none ∧
      url.host = some (.domain name)
  numeric : ∀ {input host name}, HostOf crate input host → host = name ++ ['.'] →
    endsInNumber name = true → ∀ url, crate.parse ("https://".toList ++ name) = some url →
    ∃ address, url.host = some (.ipv4 address)

/-- Both readers of a stored name give the name back. -/
def Reread (crate : UrlCrate) (domain : CanonicalDomain) : Prop :=
  CanonicalDomain.parse crate domain.text = .ok domain ∧
    ∃ target, CrawlUrl.parse crate domain.text = .ok target ∧ target.host = domain.text

/-- The URL host of the input ends with two dots, of which only one is removed. -/
def keepsDot (crate : UrlCrate) (input : Text) : Bool :=
  match crate.parse (withScheme (trim input)) with
  | none => false
  | some url =>
      match url.host with
      | some (.domain host) => "..".toList.isSuffixOf host
      | _ => false

end Rules

section Characters

variable {c : Char}

theorem isDomainChar_not_whitespace (plain : isDomainChar c = true) : isWhitespace c = false := by
  simp only [isDomainChar, Bool.and_eq_true, decide_eq_true_eq] at plain
  obtain ⟨⟨⟨low, high⟩, _⟩, _⟩ := plain
  simp only [isWhitespace, Bool.or_eq_false_iff, Bool.and_eq_false_iff, decide_eq_false_iff_not,
    beq_eq_false_iff_ne]
  omega

theorem isDomainChar_not_colon (plain : isDomainChar c = true) : c ≠ ':' := by
  rintro rfl
  exact absurd plain (by decide)

theorem toLower_of_isDomainChar (plain : isDomainChar c = true) : c.toLower = c := by
  simp only [isDomainChar, Bool.and_eq_true, Bool.not_eq_true'] at plain
  obtain ⟨⟨_, small⟩, _⟩ := plain
  exact toLower_of_not_isUpper small

end Characters

section Names

variable {name : Text}

theorem trim_of_plain (plain : ∀ c ∈ name, isDomainChar c = true) : trim name = name :=
  trim_eq_self fun c member => isDomainChar_not_whitespace (plain c member)

theorem asciiLowercase_of_plain (plain : ∀ c ∈ name, isDomainChar c = true) :
    asciiLowercase name = name := by
  rw [asciiLowercase]
  exact (List.map_congr_left fun c member => toLower_of_isDomainChar (plain c member)).trans
    (List.map_id' name)

theorem withScheme_of_plain (plain : ∀ c ∈ name, isDomainChar c = true) :
    withScheme name = "https://".toList ++ name := by
  have absent : ':' ∉ name := fun member => isDomainChar_not_colon (plain ':' member) rfl
  rw [withScheme, containsText_of_absent (c := ':') (by decide) absent]
  rfl

theorem lacksAuthority_of_plain (plain : ∀ c ∈ name, isDomainChar c = true) :
    lacksAuthority name = false := by
  have absent : ':' ∉ name := fun member => isDomainChar_not_colon (plain ':' member) rfl
  rw [lacksAuthority, splitOnce_of_absent (c := ':') (by decide) absent]

/-- The last label of a text is the last one that is not a dot ends in. -/
theorem splitOn_concat {c : Char} (other : c ≠ '.') (front : Text) :
    ∃ labels label, (front ++ [c]).splitOn '.' = labels ++ [label ++ [c]] := by
  induction front with
  | nil =>
      refine ⟨[], [], ?_⟩
      exact List.splitOn_eq_singleton (by simpa using other.symm)
  | cons first front ih =>
      obtain ⟨labels, label, split⟩ := ih
      rw [List.cons_append, List.splitOn_cons_eq_if_modifyHead, split]
      split
      · exact ⟨[] :: labels, label, rfl⟩
      · cases labels with
        | nil => exact ⟨[], first :: label, rfl⟩
        | cons head tail => exact ⟨(first :: head) :: tail, label, rfl⟩

/-- The dot at the end of a name starts an empty label, which the check for a
number skips. -/
theorem endsInNumber_concat (undotted : name.getLast? ≠ some '.') (present : name ≠ []) :
    endsInNumber (name ++ ['.']) = endsInNumber name := by
  obtain ⟨front, c, rfl⟩ := (List.eq_nil_or_concat' name).resolve_left present
  have other : c ≠ '.' := by simpa using undotted
  obtain ⟨labels, label, split⟩ := splitOn_concat other front
  have own : lastLabel (front ++ [c]) = label ++ [c] := by
    rw [lastLabel, split, List.reverse_append]
    cases reversed : labels.reverse with
    | nil => rfl
    | cons previous more => simp
  have dotted : lastLabel (front ++ [c] ++ ['.']) = label ++ [c] := by
    rw [lastLabel, List.splitOn_append_cons_self, split]
    simp
  rw [endsInNumber, endsInNumber, own, dotted]

end Names

section Reading

variable {crate : UrlCrate} {input host name : Text} {domain : CanonicalDomain}

theorem ofHost_eq_ok : CanonicalDomain.ofHost host = .ok domain ↔
    stripLast '.' host = domain.text := by
  constructor
  · intro success
    unfold CanonicalDomain.ofHost at success
    split at success
    · cases success
    · split at success
      · cases success
      · split at success
        · cases success
        · cases success
          rfl
  · intro same
    obtain ⟨text, present, notLocalhost, bounded⟩ := domain
    dsimp only at same
    subst same
    rw [CanonicalDomain.ofHost, dif_neg present, dif_neg notLocalhost,
      dif_neg (Nat.not_lt.mpr bounded)]

/-- The host that an accepted input is read from. -/
theorem parse_eq_ok (success : CanonicalDomain.parse crate input = .ok domain) :
    ∃ host, HostOf crate (withScheme (trim input)) host ∧
      keepsDot crate input = "..".toList.isSuffixOf host ∧ stripLast '.' host = domain.text := by
  simp only [CanonicalDomain.parse] at success
  split at success
  · cases success
  · split at success
    · cases success
    · split at success
      · cases success
      · rename_i url found
        split at success
        · cases success
        · rename_i scheme
          split at success
          · cases success
          · split at success
            · cases success
            · rename_i host sameHost
              refine ⟨host, ⟨url, found, by simpa using scheme, sameHost⟩, ?_,
                ofHost_eq_ok.mp success⟩
              simp only [keepsDot, found, sameHost]
            · cases success

/-- A plain name is read as the host that the crate finds in it. -/
theorem parse_name (plain : ∀ c ∈ name, isDomainChar c = true) (present : name ≠ []) {url : Url}
    (found : crate.parse ("https://".toList ++ name) = some url)
    (scheme : url.scheme = "https".toList) (username : url.username = [])
    (password : url.password = none) (sameHost : url.host = some (.domain name)) :
    CanonicalDomain.parse crate name = CanonicalDomain.ofHost name := by
  simp only [CanonicalDomain.parse, trim_of_plain plain, if_neg present,
    lacksAuthority_of_plain plain, withScheme_of_plain plain, found]
  rw [scheme, username, password, sameHost]
  rfl

theorem crawlUrl_name (plain : ∀ c ∈ name, isDomainChar c = true) (present : name ≠ []) {url : Url}
    (found : crate.parse ("https://".toList ++ name) = some url)
    (scheme : url.scheme = "https".toList) (username : url.username = [])
    (password : url.password = none) (fragment : url.fragment = none)
    (sameHost : url.host = some (.domain name)) (notLocalhost : name ≠ "localhost".toList) :
    ∃ target, CrawlUrl.parse crate name = .ok target ∧ target.host = name := by
  have http : isHttpScheme url.scheme = true := by
    rw [scheme]
    decide
  have lower : asciiLowercase name ≠ "localhost".toList := by
    rw [asciiLowercase_of_plain plain]
    exact notLocalhost
  refine ⟨⟨url, name, http, username, password, fragment, sameHost, lower⟩, ?_, rfl⟩
  simp only [CrawlUrl.parse, trim_of_plain plain, if_neg present, withScheme_of_plain plain, found]
  rw [CrawlUrl.fromUrl, dif_pos http, dif_pos ⟨username, password⟩, dif_pos fragment]
  split
  · rename_i missing
    rw [sameHost] at missing
    cases missing
  · rename_i other same
    rw [sameHost] at same
    cases same
    rw [dif_neg lower]
  · rename_i notDomain same
    rw [sameHost] at same
    cases same
    exact absurd rfl (notDomain name)

theorem twoDots_concat : "..".toList.isSuffixOf (name ++ ['.']) = true ↔
    name.getLast? = some '.' := by
  rw [List.isSuffixOf_iff_suffix]
  constructor
  · rintro ⟨front, same⟩
    have split : front ++ ['.'] ++ ['.'] = name ++ ['.'] := by
      rw [← same, List.append_assoc]
      rfl
    rw [← List.append_cancel_right split, List.getLast?_concat]
  · intro last
    obtain ⟨front, rfl⟩ := List.getLast?_eq_some_iff.mp last
    exact ⟨front, by rw [List.append_assoc]; rfl⟩

theorem twoDots_undotted (undotted : host.getLast? ≠ some '.') :
    "..".toList.isSuffixOf host = false := by
  rw [← Bool.not_eq_true, List.isSuffixOf_iff_suffix]
  rintro ⟨front, same⟩
  apply undotted
  rw [← same]
  exact List.getLast?_append_of_ne_nil front (by decide)

theorem undotted_of_clean (success : CanonicalDomain.parse crate input = .ok domain)
    (clean : keepsDot crate input = false) : domain.text.getLast? ≠ some '.' := by
  obtain ⟨host, _, keeps, stripped⟩ := parse_eq_ok success
  rw [keeps] at clean
  by_cases last : host.getLast? = some '.'
  · obtain ⟨name, rfl⟩ := List.getLast?_eq_some_iff.mp last
    rw [stripLast_concat] at stripped
    subst stripped
    rw [← Bool.not_eq_true, twoDots_concat] at clean
    exact clean
  · rw [stripLast_of_not last] at stripped
    rw [← stripped]
    exact last

/-- A name without a dot at its end is read back as it is. -/
theorem reread_of_undotted (hosts : WhatwgHosts crate) (hostOf : HostOf crate input host)
    (same : host = domain.text ∨ host = domain.text ++ ['.'])
    (undotted : domain.text.getLast? ≠ some '.') : Reread crate domain := by
  have present := domain.text_present
  have notNumeric : endsInNumber domain.text = false := by
    rcases same with whole | dotted
    · rw [← whole]
      exact hosts.notNumeric hostOf
    · rw [← endsInNumber_concat undotted present, ← dotted]
      exact hosts.notNumeric hostOf
  have plain : ∀ c ∈ domain.text, isDomainChar c = true := by
    intro c member
    apply hosts.plain hostOf
    rcases same with whole | dotted
    · rw [whole]
      exact member
    · rw [dotted]
      exact List.mem_append_left _ member
  obtain ⟨url, found, scheme, username, password, fragment, sameHost⟩ :=
    hosts.again hostOf same present notNumeric
  refine ⟨?_, crawlUrl_name plain present found scheme username password fragment sameHost
    domain.text_not_localhost⟩
  rw [parse_name plain present found scheme username password sameHost, ofHost_eq_ok]
  exact stripLast_of_not undotted

/-- A name that still ends with a dot is read as another name, or not at all. -/
theorem not_reread_of_dotted (hosts : WhatwgHosts crate)
    (hostOf : HostOf crate input (domain.text ++ ['.']))
    (dotted : domain.text.getLast? = some '.') : ¬Reread crate domain := by
  rintro ⟨parsed, _⟩
  obtain ⟨host, ⟨url, found, _, sameHost⟩, _, stripped⟩ := parse_eq_ok parsed
  have plain : ∀ c ∈ domain.text, isDomainChar c = true :=
    fun c member => hosts.plain hostOf c (List.mem_append_left _ member)
  rw [trim_of_plain plain, withScheme_of_plain plain] at found
  cases numeric : endsInNumber domain.text with
  | true =>
      obtain ⟨address, isAddress⟩ := hosts.numeric hostOf rfl numeric url found
      rw [isAddress] at sameHost
      cases sameHost
  | false =>
      obtain ⟨other, foundOther, _, _, _, _, otherHost⟩ :=
        hosts.again hostOf (Or.inr rfl) domain.text_present numeric
      rw [found] at foundOther
      cases foundOther
      rw [sameHost] at otherHost
      cases otherHost
      obtain ⟨front, same⟩ := List.getLast?_eq_some_iff.mp dotted
      rw [same, stripLast_concat] at stripped
      have lengths := congrArg List.length stripped
      rw [List.length_append, List.length_singleton] at lengths
      omega

/-- An accepted input gives a fixed point of both readers exactly when its URL
host does not end with two dots. -/
theorem reread_iff (hosts : WhatwgHosts crate)
    (success : CanonicalDomain.parse crate input = .ok domain) :
    Reread crate domain ↔ keepsDot crate input = false := by
  obtain ⟨host, hostOf, keeps, stripped⟩ := parse_eq_ok success
  rw [keeps]
  by_cases last : host.getLast? = some '.'
  · obtain ⟨name, rfl⟩ := List.getLast?_eq_some_iff.mp last
    rw [stripLast_concat] at stripped
    subst stripped
    by_cases dotted : domain.text.getLast? = some '.'
    · rw [twoDots_concat.mpr dotted]
      have unread := not_reread_of_dotted hosts hostOf dotted
      exact ⟨fun reread => absurd reread unread, fun impossible => nomatch impossible⟩
    · have single : "..".toList.isSuffixOf (domain.text ++ ['.']) = false := by
        rw [← Bool.not_eq_true, twoDots_concat]
        exact dotted
      rw [single]
      exact ⟨fun _ => rfl, fun _ => reread_of_undotted hosts hostOf (Or.inr rfl) dotted⟩
  · rw [stripLast_of_not last] at stripped
    subst stripped
    rw [twoDots_undotted last]
    exact ⟨fun _ => rfl, fun _ => reread_of_undotted hosts hostOf (Or.inl rfl) last⟩

end Reading

section Plain

variable {input host name : Text}

/-- Letters and digits are outside every range that the host rules exclude. -/
theorem isDomainChar_of_range {c : Char}
    (range : (48 ≤ c.toNat ∧ c.toNat ≤ 57) ∨ (97 ≤ c.toNat ∧ c.toNat ≤ 122)) :
    isDomainChar c = true ∧ plainAuthorityEnd c = true := by
  have other : ∀ d : Char, d.toNat < 48 ∨ 57 < d.toNat ∧ d.toNat < 97 ∨ 122 < d.toNat →
      c ≠ d := by
    rintro d outside rfl
    omega
  constructor
  · have small : c.isUpper = false := by
      rw [← Bool.not_eq_true, isUpper_iff]
      omega
    have allowed : "#%/:<>?@[\\]^|".toList.contains c = false := by
      rw [← Bool.not_eq_true, List.contains_iff_mem]
      intro member
      have listed : ("#%/:<>?@[\\]^|".toList.all fun d =>
          d.toNat < 48 || 57 < d.toNat && d.toNat < 97 || 122 < d.toNat) = true := by decide
      have outside := List.all_eq_true.mp listed c member
      simp only [Bool.or_eq_true, Bool.and_eq_true, decide_eq_true_eq] at outside
      omega
    have low : 0x20 < c.toNat := by omega
    have high : c.toNat < 0x7F := by omega
    simp only [isDomainChar, small, allowed, low, high, decide_true]
    rfl
  · simp only [plainAuthorityEnd, Bool.and_eq_true, bne_iff_ne]
    exact ⟨⟨other '/' (by decide), other '?' (by decide)⟩, other '#' (by decide)⟩

theorem isHostChar_cases {c : Char} (plain : isHostChar c = true) :
    isDomainChar c = true ∧ plainAuthorityEnd c = true := by
  simp only [isHostChar, Bool.or_eq_true, beq_iff_eq] at plain
  rcases plain with (((lower | digit) | rfl) | rfl) | rfl
  · apply isDomainChar_of_range
    exact Or.inr (isLower_iff.mp lower)
  · apply isDomainChar_of_range
    exact Or.inl (Char.isDigit_iff_toNat.mp digit)
  · decide
  · decide
  · decide

theorem plainParse_host (hostOf : HostOf plainUrlCrate input host) :
    host ≠ [] ∧ (∀ c ∈ host, isHostChar c = true) ∧ endsInNumber host = false := by
  obtain ⟨url, parsed, _, sameHost⟩ := hostOf
  simp only [plainUrlCrate, plainParse] at parsed
  split at parsed
  · cases parsed
  · split at parsed
    · rename_i accepted
      cases parsed
      simp only [plainUrl, Option.some.injEq, Host.domain.injEq] at sameHost
      subst sameHost
      simp only [Bool.and_eq_true, Bool.not_eq_true', List.all_eq_true] at accepted
      obtain ⟨⟨⟨_, present⟩, plain⟩, notNumeric⟩ := accepted
      exact ⟨by simpa using present, plain, notNumeric⟩
    · cases parsed

/-- A plain name is parsed as itself, unless it ends in a number. -/
theorem plainParse_name (plain : ∀ c ∈ name, isHostChar c = true) (present : name ≠ []) :
    plainParse ("https://".toList ++ name) =
      if endsInNumber name then none else some (plainUrl "https".toList name []) := by
  have split : splitOnce "://".toList ("https://".toList ++ name) = some ("https".toList, name) := rfl
  have kept : name.takeWhile plainAuthorityEnd = name :=
    List.takeWhile_eq_self_iff.mpr fun c member => (isHostChar_cases (plain c member)).2
  have dropped : name.dropWhile plainAuthorityEnd = [] :=
    List.dropWhile_eq_nil_iff.mpr fun c member => (isHostChar_cases (plain c member)).2
  have lower : asciiLowercase name = name :=
    asciiLowercase_of_plain fun c member => (isHostChar_cases (plain c member)).1
  have http : isHttpScheme "https".toList = true := by decide
  have all : name.all isHostChar = true := List.all_eq_true.mpr plain
  have nonempty : name.isEmpty = false := by simpa using present
  simp only [plainParse, split, kept, dropped, lower, http, all, nonempty]
  cases endsInNumber name <;> rfl

theorem plainUrlCrate_hosts : WhatwgHosts plainUrlCrate where
  present := fun hostOf => (plainParse_host hostOf).1
  plain := fun hostOf c member => (isHostChar_cases ((plainParse_host hostOf).2.1 c member)).1
  notNumeric := fun hostOf => (plainParse_host hostOf).2.2
  again := by
    intro input host name hostOf same present notNumeric
    have plain : ∀ c ∈ name, isHostChar c = true := by
      intro c member
      apply (plainParse_host hostOf).2.1
      rcases same with rfl | rfl
      · exact member
      · exact List.mem_append_left _ member
    have parsed : plainParse ("https://".toList ++ name) =
        some (plainUrl "https".toList name []) := by
      rw [plainParse_name plain present, notNumeric]
      rfl
    exact ⟨_, parsed, rfl, rfl, rfl, rfl, rfl⟩
  numeric := by
    intro input host name hostOf same numeric url found
    have plain : ∀ c ∈ name, isHostChar c = true := by
      intro c member
      apply (plainParse_host hostOf).2.1
      rw [same]
      exact List.mem_append_left _ member
    have present : name ≠ [] := by
      rintro rfl
      exact absurd numeric (by decide)
    have parsed : plainParse ("https://".toList ++ name) = none := by
      rw [plainParse_name plain present, numeric]
      rfl
    rw [show plainUrlCrate.parse = plainParse from rfl, parsed] at found
    cases found

end Plain

end TechAtlas.Domains
