import Mathlib.Computability.Language
import Mathlib.Data.List.TakeWhile
import Mathlib.Order.CompletePartialOrder
import RamlTypes.Node.CoreSchema

/-!
# Plain scalars and the core schema

The core schema of YAML 1.2 gives the types of plain scalars by lists of spellings and by regular
expressions. Here the expressions are languages (`decimal`, `fractional`) or an inductive relation
between a text and its value (`Integer`), and `Typed` says which type and which text a plain scalar
gets. `typed_ofPlain` shows that `ScalarType.ofPlain`, which tests prefixes and characters and leaves
the rest to readers of numerals, gives every text the type and the text of `Typed`.

The readers take more signs than the schema does. A plus sign behind `0x` and `0o` is taken, so
`Integer` has it. A sign before such a numeral is not: `ScalarType.ofPlain` finds no prefix there.
-/

namespace RamlTypes.CoreSchema

open ScalarType Numeral
open scoped Computability

/-! ## Languages -/

/-- The texts of one of the given characters. -/
def oneOf (chars : String) : Language Char := {cs | ∃ c ∈ chars.toList, cs = [c]}

/-- The empty text and the texts of a language. -/
def perhaps (l : Language Char) : Language Char := 1 + l

/-- One or more texts of a language. -/
def repeated (l : Language Char) : Language Char := l * l∗

/-- `[0-9]` -/
def digit : Language Char := oneOf "0123456789"

/-- `[-+]?` -/
def sign : Language Char := perhaps (oneOf "-+")

/-- `[-+]?[0-9]+` -/
def decimal : Language Char := sign * repeated digit

/-- `\.[0-9]+|[0-9]+(\.[0-9]*)?` -/
def mantissa : Language Char :=
  oneOf "." * repeated digit + repeated digit * perhaps (oneOf "." * digit∗)

/-- `[eE][-+]?[0-9]+` -/
def exponent : Language Char := oneOf "eE" * (sign * repeated digit)

/-- `[-+]?(\.[0-9]+|[0-9]+(\.[0-9]*)?)([eE][-+]?[0-9]+)?` -/
def fractional : Language Char := sign * (mantissa * perhaps exponent)

variable {cs ds rest : List Char} {c : Char} {chars : String} {l m : Language Char}

/-- An optional text is the empty one or one of the language. -/
theorem mem_perhaps : cs ∈ perhaps l ↔ cs = [] ∨ cs ∈ l := by
  rw [perhaps, Language.mem_add, Language.mem_one]

/-- An optional text in front is there or not. -/
theorem perhaps_mul : perhaps l * m = m + l * m := by
  rw [perhaps, add_mul, one_mul]

/-- One of some characters in front is the first character. -/
theorem cons_mem_oneOf_mul : c :: rest ∈ oneOf chars * l ↔ c ∈ chars.toList ∧ rest ∈ l := by
  rw [Language.mem_mul]
  constructor
  · rintro ⟨_, ⟨d, hd, rfl⟩, ds, hds, h⟩
    cases h
    exact ⟨hd, hds⟩
  · rintro ⟨hc, hrest⟩
    exact ⟨[c], ⟨c, hc, rfl⟩, rest, hrest, rfl⟩

/-- The empty text has no first character. -/
theorem nil_notMem_oneOf_mul : [] ∉ oneOf chars * l := by
  rw [Language.mem_mul]
  rintro ⟨_, ⟨d, hd, rfl⟩, ds, hds, h⟩
  cases h

/-- Any number of some characters are a text of these. -/
theorem mem_kstar_oneOf : cs ∈ (oneOf chars)∗ ↔ ∀ c ∈ cs, c ∈ chars.toList := by
  rw [Language.mem_kstar]
  constructor
  · rintro ⟨pieces, rfl, hpieces⟩ c hc
    obtain ⟨piece, hpiece, hmem⟩ := List.mem_flatten.1 hc
    obtain ⟨d, hd, rfl⟩ := hpieces piece hpiece
    exact List.mem_singleton.1 hmem ▸ hd
  · intro h
    refine ⟨cs.map ([·]), ?_, fun piece hpiece => ?_⟩
    · rw [← List.flatMap_def]
      exact (List.flatMap_singleton' cs).symm
    · obtain ⟨c, hc, rfl⟩ := List.mem_map.1 hpiece
      exact ⟨c, h c hc, rfl⟩

/-- One or more of some characters are a text of these that is not empty. -/
theorem mem_repeated_oneOf : cs ∈ repeated (oneOf chars) ↔ cs ≠ [] ∧ ∀ c ∈ cs, c ∈ chars.toList := by
  cases cs with
  | nil => exact iff_of_false nil_notMem_oneOf_mul fun h => h.1 rfl
  | cons c rest =>
    rw [repeated, cons_mem_oneOf_mul, mem_kstar_oneOf, List.forall_mem_cons]
    exact (and_iff_right (List.cons_ne_nil _ _)).symm

/-! ## Signs -/

/-- A sign is cut off a text of a language whose texts have none. -/
theorem mem_sign_mul (hl : ∀ ds ∈ l, unsignedPart ds = ds) :
    cs ∈ sign * l ↔ unsignedPart cs ∈ l := by
  rw [Language.mem_mul]
  constructor
  · rintro ⟨s, hs, ds, hds, rfl⟩
    rcases mem_perhaps.1 hs with rfl | ⟨c, hc, rfl⟩
    · rwa [List.nil_append, hl ds hds]
    · rcases (by simpa using hc : c = '-' ∨ c = '+') with rfl | rfl <;> exact hds
  · intro h
    have hminus : ['-'] ∈ sign := mem_perhaps.2 (.inr ⟨'-', by decide, rfl⟩)
    have hplus : ['+'] ∈ sign := mem_perhaps.2 (.inr ⟨'+', by decide, rfl⟩)
    rw [unsignedPart.eq_def] at h
    split at h
    · exact ⟨['-'], hminus, _, h, rfl⟩
    · exact ⟨['+'], hplus, _, h, rfl⟩
    · exact ⟨[], mem_perhaps.2 (.inl rfl), _, h, rfl⟩

/-- Both readers of signs leave the same behind them. -/
theorem cutSign_snd (cs : List Char) : (cutSign cs).2 = unsignedPart cs := by
  rw [cutSign.eq_def]
  split
  · rfl
  · rfl
  · next hminus hplus =>
    rw [unsignedPart.eq_def]
    split
    · exact absurd rfl (hminus _)
    · exact absurd rfl (hplus _)
    · rfl

/-- A text that starts with no sign has none to cut off. -/
theorem unsignedPart_cons (hminus : c ≠ '-') (hplus : c ≠ '+') :
    unsignedPart (c :: rest) = c :: rest := by
  rw [unsignedPart.eq_def]
  split
  · next h => exact absurd (List.cons.inj h).1 hminus
  · next h => exact absurd (List.cons.inj h).1 hplus
  · rfl

/-! ## Digits -/

/-- What holds of the characters up to `z` holds of every character with a digit's value. -/
theorem of_digitValue? {P : Char → Prop} (hP : ∀ n < 123, P (Char.ofNat n)) {d : Nat}
    (h : digitValue? c = some d) : P c := by
  have hz : c.toNat ≤ 'z'.toNat := by
    unfold digitValue? at h
    split_ifs at h with h9 hz hZ
    · rw [Char.isDigit, Bool.and_eq_true, decide_eq_true_eq, decide_eq_true_eq] at h9
      exact h9.2.trans (by decide)
    · exact hz.2
    · exact hZ.2.trans (by decide)
  rw [← Char.ofNat_toNat c]
  exact hP _ (Nat.lt_succ_of_le hz)

/-- The digits of the expressions are the decimal digits. -/
theorem mem_digits : c ∈ "0123456789".toList ↔ c.isDigit := by
  constructor
  · have hall : "0123456789".toList.all Char.isDigit := by decide
    exact List.all_eq_true.1 hall c
  · intro h
    have hvalue : digitValue? c = some (c.toNat - '0'.toNat) := if_pos h
    exact of_digitValue? (P := fun c => c.isDigit → c ∈ "0123456789".toList) (by decide) hvalue h

/-- `[0-9]*`, read character by character. -/
theorem mem_kstar_digit : cs ∈ digit∗ ↔ ∀ c ∈ cs, c.isDigit := by
  simp only [digit, mem_kstar_oneOf, mem_digits]

/-- `[0-9]+`, read character by character. -/
theorem mem_repeated_digit : cs ∈ repeated digit ↔ cs ≠ [] ∧ ∀ c ∈ cs, c.isDigit := by
  simp only [digit, mem_repeated_oneOf, mem_digits]

/-- What follows some digits is found behind the leading digits, if it does not start with one. -/
theorem mem_kstar_digit_mul (hl : ∀ ds ∈ l, ds.dropWhile Char.isDigit = ds) :
    cs ∈ digit∗ * l ↔ cs.dropWhile Char.isDigit ∈ l := by
  rw [Language.mem_mul]
  constructor
  · rintro ⟨ds, hds, rest, hrest, rfl⟩
    rwa [List.dropWhile_append_of_pos (mem_kstar_digit.1 hds), hl rest hrest]
  · intro h
    refine ⟨_, mem_kstar_digit.2 fun c hc => ?_, _, h, List.takeWhile_append_dropWhile⟩
    exact List.all_eq_true.1 List.all_takeWhile c hc

/-- What follows one or more digits is found behind the leading digits, of which there are some. -/
theorem mem_repeated_digit_mul (hl : ∀ ds ∈ l, ds.dropWhile Char.isDigit = ds) :
    cs ∈ repeated digit * l ↔
      cs.takeWhile Char.isDigit ≠ [] ∧ cs.dropWhile Char.isDigit ∈ l := by
  rw [repeated, mul_assoc]
  cases cs with
  | nil => exact iff_of_false nil_notMem_oneOf_mul fun h => h.1 rfl
  | cons c rest =>
    rw [digit, cons_mem_oneOf_mul, mem_digits, ← digit, mem_kstar_digit_mul hl]
    by_cases hc : c.isDigit <;> simp [hc]

/-- Digits have no sign. -/
theorem unsignedPart_digits (h : cs ∈ repeated digit) : unsignedPart cs = cs := by
  rw [mem_repeated_digit] at h
  cases cs with
  | nil => rfl
  | cons c rest =>
    have hc := h.2 c List.mem_cons_self
    refine unsignedPart_cons ?_ ?_ <;> rintro rfl <;> cases hc

/-- `[-+]?[0-9]+`, read behind the sign. -/
theorem mem_decimal : cs ∈ decimal ↔ unsignedPart cs ∈ repeated digit :=
  mem_sign_mul fun _ => unsignedPart_digits

/-- The test for integers recognizes `[-+]?[0-9]+`. -/
theorem isInteger_iff : isInteger cs ↔ cs ∈ decimal := by
  rw [mem_decimal, mem_repeated_digit, isInteger]
  simp

/-! ## Decimal numbers -/

/-- What can follow digits in a number does not start with one. -/
theorem dropWhile_perhaps_exponent (h : cs ∈ perhaps exponent) : cs.dropWhile Char.isDigit = cs := by
  rcases mem_perhaps.1 h with rfl | h
  · rfl
  · cases cs with
    | nil => rfl
    | cons c rest =>
      rcases (by simpa using (cons_mem_oneOf_mul.1 h).1 : c = 'e' ∨ c = 'E') with rfl | rfl <;> rfl

/-- The reader of exponents takes `([eE][-+]?[0-9]+)?`. -/
theorem exponent?_isSome_iff : (exponent? cs).isSome ↔ cs ∈ perhaps exponent := by
  cases cs with
  | nil => exact iff_of_true rfl (mem_perhaps.2 (.inl rfl))
  | cons c rest =>
    have hletter : c ∈ "eE".toList ↔ c = 'e' ∨ c = 'E' := by simp
    rw [mem_perhaps, exponent, cons_mem_oneOf_mul, hletter, ← decimal, ← isInteger_iff, exponent?,
      isInteger, ← cutSign_snd]
    by_cases hc : c = 'e' ∨ c = 'E'
    · simp [hc]
    · simp [hc]

/-- The mantissa of a number and what follows it, from the left. -/
theorem mem_mantissa_mul : cs ∈ mantissa * perhaps exponent ↔
    (∃ rest, cs = '.' :: rest ∧ rest.takeWhile Char.isDigit ≠ [] ∧
      rest.dropWhile Char.isDigit ∈ perhaps exponent) ∨
    cs.takeWhile Char.isDigit ≠ [] ∧ (cs.dropWhile Char.isDigit ∈ perhaps exponent ∨
      ∃ rest, cs.dropWhile Char.isDigit = '.' :: rest ∧
        rest.dropWhile Char.isDigit ∈ perhaps exponent) := by
  have hpoint (l : Language Char) (cs : List Char) :
      cs ∈ oneOf "." * l ↔ ∃ rest, cs = '.' :: rest ∧ rest ∈ l := by
    cases cs with
    | nil => exact iff_of_false nil_notMem_oneOf_mul nofun
    | cons c rest =>
      rw [cons_mem_oneOf_mul]
      simp
  have hrest : ∀ ds ∈ perhaps exponent + oneOf "." * (digit∗ * perhaps exponent),
      ds.dropWhile Char.isDigit = ds := by
    intro ds hds
    rcases hds with hds | hds
    · exact dropWhile_perhaps_exponent hds
    · obtain ⟨rest, rfl, -⟩ := (hpoint _ _).1 hds
      rfl
  -- digits come first on one side only, so that the first character decides between the two
  have hl : mantissa * perhaps exponent = oneOf "." * (repeated digit * perhaps exponent) +
      repeated digit * (perhaps exponent + oneOf "." * (digit∗ * perhaps exponent)) := by
    rw [mantissa, add_mul, mul_assoc, mul_assoc, perhaps_mul, mul_assoc]
  rw [hl, Language.mem_add, hpoint, mem_repeated_digit_mul hrest, Language.mem_add, hpoint]
  simp only [mem_repeated_digit_mul fun _ => dropWhile_perhaps_exponent,
    mem_kstar_digit_mul fun _ => dropWhile_perhaps_exponent]

/-- The reader of decimal numbers takes the texts with a mantissa behind the sign. -/
theorem parts?_isSome_iff : (parts? cs).isSome ↔ unsignedPart cs ∈ mantissa * perhaps exponent := by
  have hpoint : ∀ rest, '.' :: rest ∉ perhaps exponent := by
    intro rest h
    rcases mem_perhaps.1 h with h | h
    · cases h
    · exact absurd (cons_mem_oneOf_mul.1 h).1 (by decide)
  rw [mem_mantissa_mul, ← cutSign_snd, parts?]
  rcases cutSign cs with ⟨negative, u⟩
  -- the reader cuts off the digits before it looks for a point, also where there are none
  have hfirst (more : List Char) : u = '.' :: more ↔
      u.takeWhile Char.isDigit = [] ∧ u.dropWhile Char.isDigit = '.' :: more := by
    constructor
    · rintro rfl
      exact ⟨rfl, rfl⟩
    · rintro ⟨hwhole, hrest⟩
      rw [← List.takeWhile_append_dropWhile (p := Char.isDigit) (l := u), hwhole, hrest,
        List.nil_append]
  simp only [cutDigits, hfirst, ← exponent?_isSome_iff] at hpoint ⊢
  by_cases hrest : ∃ more, u.dropWhile Char.isDigit = '.' :: more
  · obtain ⟨more, hmore⟩ := hrest
    by_cases hwhole : u.takeWhile Char.isDigit = []
    · by_cases hfraction : more.takeWhile Char.isDigit = [] <;>
        simp [hmore, hwhole, hfraction, -List.takeWhile_eq_nil_iff]
    · simp [hmore, hwhole, hpoint]
  · by_cases hwhole : u.takeWhile Char.isDigit = [] <;> simp [hwhole, not_exists.1 hrest]

/-- A text with leading digits starts with one. -/
theorem exists_digit_of_takeWhile (h : cs.takeWhile Char.isDigit ≠ []) :
    ∃ c rest, cs = c :: rest ∧ c.isDigit := by
  cases cs with
  | nil => exact absurd rfl h
  | cons c rest =>
    refine ⟨c, rest, rfl, ?_⟩
    by_contra hc
    exact h (List.takeWhile_cons_of_neg hc)

/-- A number without a sign starts with a point or a digit, and it has a digit. -/
theorem exists_of_mem_mantissa_mul (h : cs ∈ mantissa * perhaps exponent) :
    ∃ c rest, cs = c :: rest ∧ (c = '.' ∨ c.isDigit) ∧ ∃ d ∈ cs, d.isDigit := by
  rcases mem_mantissa_mul.1 h with ⟨rest, rfl, hdigits, -⟩ | ⟨hdigits, -⟩
  · obtain ⟨d, more, rfl, hd⟩ := exists_digit_of_takeWhile hdigits
    exact ⟨'.', _, rfl, .inl rfl, d, by simp, hd⟩
  · obtain ⟨d, more, rfl, hd⟩ := exists_digit_of_takeWhile hdigits
    exact ⟨d, more, rfl, .inr hd, d, List.mem_cons_self, hd⟩

/-- One of some characters is a text of any larger set of them. -/
theorem oneOf_le {ds : String} (h : chars.toList ⊆ ds.toList) : oneOf chars ≤ (oneOf ds)∗ := by
  rintro _ ⟨c, hc, rfl⟩
  exact mem_kstar_oneOf.2 fun d hd => h (List.mem_singleton.1 hd ▸ hc)

/-- A number has no other characters than those of decimal numbers. -/
theorem isNumberChar_of_mem (h : cs ∈ mantissa * perhaps exponent) : ∀ c ∈ cs, isNumberChar c := by
  let all : Language Char := (oneOf "0123456789.eE+-")∗
  have hmul {l m : Language Char} (hl : l ≤ all) (hm : m ≤ all) : l * m ≤ all :=
    (mul_le_mul' hl hm).trans (kstar_mul_kstar _).le
  have hperhaps {l : Language Char} (hl : l ≤ all) : perhaps l ≤ all := add_le one_le_kstar hl
  have hdigits : digit∗ ≤ all := (kstar_mono (oneOf_le (by decide))).trans (kstar_idem _).le
  have hrepeated : repeated digit ≤ all := hmul (oneOf_le (by decide)) hdigits
  have hpoint : oneOf "." ≤ all := oneOf_le (by decide)
  have hmantissa : mantissa ≤ all :=
    add_le (hmul hpoint hrepeated) (hmul hrepeated (hperhaps (hmul hpoint hdigits)))
  have hexponent : exponent ≤ all :=
    hmul (oneOf_le (by decide)) (hmul (hperhaps (oneOf_le (by decide))) hrepeated)
  have hchars : "0123456789.eE+-".toList.all isNumberChar := by decide
  have hmem := mem_kstar_oneOf.1 (hmul hmantissa (hperhaps hexponent) h)
  exact fun c hc => List.all_eq_true.1 hchars c (hmem c hc)

/-- The test for numbers recognizes `[-+]?(\.[0-9]+|[0-9]+(\.[0-9]*)?)([eE][-+]?[0-9]+)?`. -/
theorem isNumber_iff : isNumber cs ↔ cs ∈ fractional := by
  rw [fractional, mem_sign_mul, isNumber]
  · simp only [Bool.and_eq_true, parts?_isSome_iff]
    refine ⟨And.right, fun h => ⟨⟨⟨?_, ?_⟩, ?_⟩, h⟩⟩
    · obtain ⟨c, rest, hcs, hc, -⟩ := exists_of_mem_mantissa_mul h
      rw [hcs]
      rcases hc with rfl | hc <;> simp_all
    · obtain ⟨_, _, -, -, d, hd, hdigit⟩ := exists_of_mem_mantissa_mul h
      exact List.any_eq_true.2 ⟨d, hd, hdigit⟩
    · exact List.all_eq_true.2 (isNumberChar_of_mem h)
  · intro ds hds
    obtain ⟨c, rest, rfl, hc, -⟩ := exists_of_mem_mantissa_mul hds
    refine unsignedPart_cons ?_ ?_ <;> rintro rfl <;> rcases hc with hc | hc <;> cases hc

/-! ## Integers -/

/-- The value of a digit, a letter counting the same in upper and in lower case. -/
def digitOf (c : Char) : Nat := "0123456789abcdef".toList.idxOf c.toLower

/-- The value of some digits, the first of which counts most. -/
def value (base : Nat) (ds : List Char) : Nat := ds.foldl (fun n c => n * base + digitOf c) 0

/-- The value of a decimal numeral with its sign. -/
def signedValue (cs : List Char) : Int :=
  if cs.head? = some '-' then -value 10 (unsignedPart cs) else value 10 (unsignedPart cs)

/-- A base other than ten: the letter behind the zero, and the digits. -/
structure Base where
  size : Nat
  letter : Char
  digits : String

/-- `0x[0-9a-fA-F]+` and `0o[0-7]+` -/
def bases : List Base := [⟨16, 'x', "0123456789abcdefABCDEF"⟩, ⟨8, 'o', "01234567"⟩]

/-- The texts that are integers, and their values. A plus sign may stand behind the letter of a base,
and a numeral in another base than ten counts only if its value fits into 64 bits. -/
inductive Integer : List Char → Int → Prop
  | decimal {cs : List Char} (h : cs ∈ decimal) : Integer cs (signedValue cs)
  | based {b : Base} {plus ds : List Char} (hb : b ∈ bases) (hplus : plus ∈ perhaps (oneOf "+"))
      (hds : ds ∈ repeated (oneOf b.digits)) (hfits : value b.size ds < 2 ^ 64) :
      Integer ('0' :: b.letter :: (plus ++ ds)) (value b.size ds)

/-- The bases of the integers and their digits. -/
def digitSets : List (Nat × String) := (10, "0123456789") :: bases.map fun b => (b.size, b.digits)

variable {b : Base} {base n m d : Nat} {digits : String}

/-- The digits of a base other than ten are among the sets of digits. -/
theorem mem_digitSets (hb : b ∈ bases) : (b.size, b.digits) ∈ digitSets :=
  List.mem_cons_of_mem _ (List.mem_map_of_mem hb)

/-- The digits of a base are the characters whose value is less than the base. -/
theorem digitValue?_iff (hb : (base, digits) ∈ digitSets) :
    digitValue? c = some d ∧ d < base ↔ c ∈ digits.toList ∧ d = digitOf c := by
  constructor
  · rintro ⟨hc, hd⟩
    have hall : ∀ n < 123, ∀ s ∈ digitSets, ∀ d ∈ digitValue? (Char.ofNat n), d < s.1 →
        Char.ofNat n ∈ s.2.toList ∧ d = digitOf (Char.ofNat n) := by
      decide
    exact of_digitValue? (P := fun c => ∀ s ∈ digitSets, ∀ d ∈ digitValue? c, d < s.1 →
      c ∈ s.2.toList ∧ d = digitOf c) hall hc _ hb d hc hd
  · rintro ⟨hc, rfl⟩
    have hall : ∀ s ∈ digitSets,
        s.2.toList.all fun c => digitValue? c = some (digitOf c) ∧ digitOf c < s.1 := by
      decide
    exact of_decide_eq_true (List.all_eq_true.1 (hall _ hb) c hc)

/-- The reader goes on with the value that it has, as long as it finds digits of the base. -/
theorem readDigits?_iff (hb : (base, digits) ∈ digitSets) : readDigits? base ds n = some m ↔
    (∀ c ∈ ds, c ∈ digits.toList) ∧ m = ds.foldl (fun n c => n * base + digitOf c) n := by
  induction ds generalizing n with
  | nil =>
    rw [readDigits?, Option.some_inj]
    exact ⟨fun h => ⟨nofun, h.symm⟩, fun h => h.2.symm⟩
  | cons c ds ih =>
    have hread : readDigits? base (c :: ds) n = some m ↔ ∃ d,
        (digitValue? c = some d ∧ d < base) ∧ readDigits? base ds (n * base + d) = some m := by
      rw [readDigits?]
      cases digitValue? c with
      | none => simp
      | some d => by_cases hd : d < base <;> simp [hd]
    simp only [hread, digitValue?_iff hb, ih, List.forall_mem_cons, List.foldl_cons]
    constructor
    · rintro ⟨_, ⟨hc, rfl⟩, hds, hm⟩
      exact ⟨⟨hc, hds⟩, hm⟩
    · rintro ⟨⟨hc, hds⟩, hm⟩
      exact ⟨_, ⟨hc, rfl⟩, hds, hm⟩

/-- The reader of digits takes one or more digits of the base, and finds their value. -/
theorem natural?_iff (hb : (base, digits) ∈ digitSets) : natural? base ds = some m ↔
    ds ∈ repeated (oneOf digits) ∧ m = value base ds := by
  rw [natural?, mem_repeated_oneOf, value]
  split_ifs with h
  · exact iff_of_false nofun fun hds => hds.1.1 h
  · rw [readDigits?_iff hb, and_iff_right h]

/-- The reader of digits takes a plus sign before them. -/
theorem unsigned?_iff (hb : b ∈ bases) : unsigned? b.size cs = some m ↔
    ∃ plus ∈ perhaps (oneOf "+"), ∃ ds ∈ repeated (oneOf b.digits),
      cs = plus ++ ds ∧ m = value b.size ds := by
  have hsign : ∀ b ∈ bases, '+' ∉ b.digits.toList := by decide
  have hplus : ['+'] ∈ perhaps (oneOf "+") := mem_perhaps.2 (.inr ⟨'+', by decide, rfl⟩)
  rw [unsigned?.eq_def]
  split
  · next rest =>
    rw [natural?_iff (mem_digitSets hb)]
    constructor
    · rintro ⟨hds, hm⟩
      exact ⟨_, hplus, rest, hds, rfl, hm⟩
    · rintro ⟨plus, hplus, ds, hds, hcs, hm⟩
      rcases mem_perhaps.1 hplus with rfl | ⟨c, hc, rfl⟩
      · rw [List.nil_append] at hcs
        exact absurd ((mem_repeated_oneOf.1 (hcs ▸ hds)).2 '+' List.mem_cons_self) (hsign b hb)
      · obtain ⟨-, rfl⟩ := List.cons.inj hcs
        exact ⟨hds, hm⟩
  · next h =>
    rw [natural?_iff (mem_digitSets hb)]
    constructor
    · rintro ⟨hds, hm⟩
      exact ⟨[], mem_perhaps.2 (.inl rfl), cs, hds, rfl, hm⟩
    · rintro ⟨plus, hplus, ds, hds, rfl, hm⟩
      rcases mem_perhaps.1 hplus with rfl | ⟨c, hc, rfl⟩
      · exact ⟨hds, hm⟩
      · obtain rfl : c = '+' := by simpa using hc
        exact absurd rfl (h ds)

/-- The letter behind a zero decides the base. -/
theorem based?_iff : based? cs = some (n, rest) ↔
    ∃ b ∈ bases, n = b.size ∧ cs = '0' :: b.letter :: rest := by
  constructor
  · intro h
    rw [based?.eq_def] at h
    split at h <;> cases h
    · exact ⟨_, List.mem_cons_self, rfl, rfl⟩
    · exact ⟨_, List.mem_cons_of_mem _ List.mem_cons_self, rfl, rfl⟩
  · rintro ⟨b, hb, rfl, rfl⟩
    rcases (by simpa [bases] using hb : b = _ ∨ b = _) with rfl | rfl <;> rfl

/-- Behind the letter of a base there is no decimal numeral. -/
theorem isNumber_of_based? (h : based? cs = some (n, rest)) : isNumber cs = false := by
  obtain ⟨b, hb, -, rfl⟩ := based?_iff.1 h
  have hletter : ∀ b ∈ bases, isNumberChar b.letter = false := by decide
  rw [isNumber, unsignedPart_cons (by decide) (by decide)]
  simp [hletter b hb]

/-- Behind the letter of a base there is no decimal integer. -/
theorem isInteger_of_based? (h : based? cs = some (n, rest)) : isInteger cs = false := by
  obtain ⟨b, hb, -, rfl⟩ := based?_iff.1 h
  have hletter : ∀ b ∈ bases, b.letter.isDigit = false := by decide
  rw [isInteger, unsignedPart_cons (by decide) (by decide)]
  simp [hletter b hb]

/-- Behind the letter of a base, a text is an integer if it is read as one that fits into 64 bits.
-/
theorem integer_of_based? {i : Int} (h : based? cs = some (n, rest)) : Integer cs i ↔
    ∃ m, (unsigned? n rest).filter (· < Node.wordLimit) = some m ∧ i = m := by
  simp only [Option.filter_eq_some_iff, decide_eq_true_eq]
  constructor
  · rintro (hdecimal | ⟨hb, hplus, hds, hfits⟩)
    · rw [← isInteger_iff, isInteger_of_based? h] at hdecimal
      cases hdecimal
    · rw [based?_iff.2 ⟨_, hb, rfl, rfl⟩, Option.some_inj, Prod.mk.injEq] at h
      obtain ⟨rfl, rfl⟩ := h
      exact ⟨_, ⟨(unsigned?_iff hb).2 ⟨_, hplus, _, hds, rfl, rfl⟩, hfits⟩, rfl⟩
  · obtain ⟨b, hb, rfl, rfl⟩ := based?_iff.1 h
    rintro ⟨m, ⟨hm, hfits⟩, rfl⟩
    obtain ⟨plus, hplus, ds, hds, rfl, rfl⟩ := (unsigned?_iff hb).1 hm
    exact .based hb hplus hds hfits

/-- Without the letter of a base, a text is an integer if it is a decimal one. -/
theorem integer_of_not_based? {i : Int} (h : based? cs = none) : Integer cs i ↔
    isInteger cs ∧ i = signedValue cs := by
  rw [isInteger_iff]
  constructor
  · rintro (hdecimal | ⟨hb, hplus, hds, hfits⟩)
    · exact ⟨hdecimal, rfl⟩
    · rw [based?_iff.2 ⟨_, hb, rfl, rfl⟩] at h
      cases h
  · rintro ⟨hdecimal, rfl⟩
    exact .decimal hdecimal

/-- A text stands for one integer at most. -/
theorem Integer.unique {i j : Int} (hi : Integer cs i) (hj : Integer cs j) : i = j := by
  cases h : based? cs with
  | none => rw [((integer_of_not_based? h).1 hi).2, ((integer_of_not_based? h).1 hj).2]
  | some found =>
    obtain ⟨n, hn, rfl⟩ := (integer_of_based? h).1 hi
    obtain ⟨m, hm, rfl⟩ := (integer_of_based? h).1 hj
    rw [Option.some.inj (hn.symm.trans hm)]

/-- The values of the decimal digits follow each other. -/
theorem digitOf_of_isDigit (h : c.isDigit) : digitOf c = c.toNat - '0'.toNat := by
  have hall : "0123456789".toList.all fun c => digitOf c = c.toNat - '0'.toNat := by decide
  exact of_decide_eq_true (List.all_eq_true.1 hall c (mem_digits.2 h))

/-- Digits are a numeral without a sign. -/
theorem decimal_of_digits (h : cs ∈ repeated digit) : cs ∈ decimal ∧ signedValue cs = value 10 cs := by
  have hunsigned := unsignedPart_digits h
  have hhead : cs.head? ≠ some '-' := fun hc =>
    absurd ((mem_repeated_digit.1 h).2 '-' (List.mem_of_mem_head? hc)) (by decide)
  rw [mem_decimal, signedValue, if_neg hhead, hunsigned]
  exact ⟨h, rfl⟩

/-- What the reader of digits takes in base ten is a numeral of the number that it finds. -/
theorem decimal_of_unsigned? (h : unsigned? 10 cs = some m) : cs ∈ decimal ∧ signedValue cs = m := by
  rw [unsigned?.eq_def] at h
  split at h
  · next rest =>
    obtain ⟨hds, rfl⟩ := (natural?_iff List.mem_cons_self).1 h
    exact ⟨mem_decimal.2 hds, rfl⟩
  · obtain ⟨hds, rfl⟩ := (natural?_iff List.mem_cons_self).1 h
    exact decimal_of_digits hds

/-- The decimal digits of a number are a numeral of that number. -/
theorem decimal_toDigits (n : Nat) :
    Nat.toDigits 10 n ∈ decimal ∧ signedValue (Nat.toDigits 10 n) = n := by
  have hdigit : ∀ c ∈ Nat.toDigits 10 n, c.isDigit := fun c =>
    Nat.isDigit_of_mem_toDigits (by decide) (by decide)
  have hvalue : value 10 (Nat.toDigits 10 n) = n := by
    rw [value]
    conv_rhs => rw [← Nat.ofDigitChars_ten_toDigits (n := n), Nat.ofDigitChars_eq_foldl]
    refine List.foldl_ext _ _ _ fun n c hc => ?_
    rw [digitOf_of_isDigit (hdigit c hc), Nat.mul_comm]
  obtain ⟨hdecimal, hsigned⟩ := decimal_of_digits (mem_repeated_digit.2 ⟨Nat.toDigits_ne_nil, hdigit⟩)
  exact ⟨hdecimal, hsigned.trans (congrArg _ hvalue)⟩

/-- Without its plus sign a numeral is one of the same number. -/
theorem decimal_withoutPlus (h : cs ∈ decimal) :
    withoutPlus cs ∈ decimal ∧ signedValue (withoutPlus cs) = signedValue cs := by
  rw [withoutPlus.eq_def]
  split
  · exact decimal_of_digits (mem_decimal.1 h)
  · exact ⟨h, rfl⟩

/-! ## Words -/

/-- A word of the core schema with its spellings, and the text that is stored for them. -/
structure Word where
  spellings : List String
  stored : String
  type : ScalarType

/-- The words of the core schema: `null`, the booleans, the infinities, and what is no number. -/
def words : List Word := [
  ⟨["", "~", "null", "Null", "NULL"], "", .null⟩,
  ⟨["true", "True", "TRUE"], "true", .bool⟩,
  ⟨["false", "False", "FALSE"], "false", .bool⟩,
  ⟨[".inf", ".Inf", ".INF", "+.inf", "+.Inf", "+.INF"], "inf", .float⟩,
  ⟨["-.inf", "-.Inf", "-.INF"], "-inf", .float⟩,
  ⟨[".nan", ".NaN", ".NAN"], "NaN", .float⟩]

variable {text stored : String} {type : ScalarType}

/-- Whether a text spells a word of a type. -/
def Spells (text : String) (type : ScalarType) : Prop :=
  ∃ w ∈ words, text ∈ w.spellings ∧ w.type = type

/-- The spellings of a word are found, and they are no spellings of another one. -/
theorem special?_of_mem {w : Word} (hw : w ∈ words) (h : text ∈ w.spellings) :
    special? text = some (w.stored, w.type) := by
  have hall : ∀ w ∈ words, ∀ text ∈ w.spellings, special? text = some (w.stored, w.type) := by
    decide
  exact hall w hw text h

/-- The table of fixed spellings is the list of words. -/
theorem special?_iff : special? text = some (stored, type) ↔
    ∃ w ∈ words, text ∈ w.spellings ∧ w.stored = stored ∧ w.type = type := by
  constructor
  · intro h
    have hmem : ∃ w ∈ words, text ∈ w.spellings := by
      unfold special? at h
      split at h <;> first | decide | cases h
    obtain ⟨w, hw, htext⟩ := hmem
    rw [special?_of_mem hw htext, Option.some_inj, Prod.mk.injEq] at h
    exact ⟨w, hw, htext, h⟩
  · rintro ⟨w, hw, htext, rfl, rfl⟩
    exact special?_of_mem hw htext

/-- A text spells a word of the type that the table has for it. -/
theorem spells_iff : Spells text type ↔ (special? text).map Prod.snd = some type := by
  rw [Option.map_eq_some_iff]
  constructor
  · rintro ⟨w, hw, htext, htype⟩
    exact ⟨_, special?_of_mem hw htext, htype⟩
  · rintro ⟨⟨stored, type⟩, h, rfl⟩
    obtain ⟨w, hw, htext, -, htype⟩ := special?_iff.1 h
    exact ⟨w, hw, htext, htype⟩

/-- No word is a numeral. -/
theorem not_numeral_of_mem {w : Word} (hw : w ∈ words) (h : text ∈ w.spellings) :
    (¬ ∃ i, Integer text.toList i) ∧ text.toList ∉ fractional := by
  have hall : ∀ w ∈ words, ∀ text ∈ w.spellings, based? text.toList = none ∧
      isInteger text.toList = false ∧ isNumber text.toList = false := by
    decide
  obtain ⟨hbased, hinteger, hnumber⟩ := hall w hw text h
  simp [integer_of_not_based? hbased, hinteger, ← isNumber_iff, hnumber]

/-! ## Plain scalars -/

/-- The type of a plain scalar and the text that is stored for it are those of the core schema, in
which a plus sign may stand behind the letter of a base. -/
structure Typed (text stored : String) (type : ScalarType) : Prop where
  null : type = .null ↔ Spells text .null
  bool : type = .bool ↔ Spells text .bool
  int : type = .int ↔ ∃ i, Integer text.toList i
  float : type = .float ↔
    Spells text .float ∨ (¬ ∃ i, Integer text.toList i) ∧ text.toList ∈ fractional
  /-- Every other text is a string. -/
  string : type = .string ↔
    (∀ w ∈ words, text ∉ w.spellings) ∧ (¬ ∃ i, Integer text.toList i) ∧ text.toList ∉ fractional
  word : ∀ w ∈ words, text ∈ w.spellings → stored = w.stored
  /-- The stored text of an integer is a decimal numeral of the same value. -/
  numeral : ∀ i, Integer text.toList i → stored.toList ∈ decimal ∧ signedValue stored.toList = i
  /-- The text of a string, and of a number that is no integer, is stored as it is. -/
  unchanged : (∀ w ∈ words, text ∉ w.spellings) → (¬ ∃ i, Integer text.toList i) → stored = text

/-- The spelling of a word has the type and the stored text of the word. -/
theorem Typed.of_word {w : Word} (hw : w ∈ words) (h : text ∈ w.spellings) :
    Typed text w.stored w.type := by
  obtain ⟨hinteger, hnumber⟩ := not_numeral_of_mem hw h
  have hspecial := special?_of_mem hw h
  have htypes : ∀ w ∈ words, w.type ≠ .int ∧ w.type ≠ .string := by decide
  have hspells (type : ScalarType) : w.type = type ↔ Spells text type := by
    simp [spells_iff, hspecial]
  exact {
    null := hspells .null
    bool := hspells .bool
    int := iff_of_false (htypes w hw).1 hinteger
    float := (hspells .float).trans (or_iff_left fun hf => hnumber hf.2).symm
    string := iff_of_false (htypes w hw).2 fun hnone => hnone.1 w hw h
    word := by
      intro w' hw' h'
      rw [special?_of_mem hw' h', Option.some_inj, Prod.mk.injEq] at hspecial
      exact hspecial.1.symm
    numeral := fun i hi => absurd ⟨i, hi⟩ hinteger
    unchanged := fun hnone => absurd h (hnone w hw) }

section

variable (hspecial : special? text = none)
include hspecial

/-- A text that is not in the table spells no word. -/
theorem not_mem_of_special? : ∀ w ∈ words, text ∉ w.spellings := by
  intro w hw h
  rw [special?_of_mem hw h] at hspecial
  cases hspecial

/-- A text that is not in the table spells no word of any type. -/
theorem not_spells_of_special? : ¬ Spells text type := by
  simp [spells_iff, hspecial]

/-- An integer that is no word is stored as a numeral of its value. -/
theorem Typed.of_integer {i : Int} (hi : Integer text.toList i)
    (hstored : stored.toList ∈ decimal ∧ signedValue stored.toList = i) : Typed text stored .int where
  null := iff_of_false nofun (not_spells_of_special? hspecial)
  bool := iff_of_false nofun (not_spells_of_special? hspecial)
  int := iff_of_true rfl ⟨i, hi⟩
  float := iff_of_false nofun fun h =>
    h.elim (not_spells_of_special? hspecial) fun hf => hf.1 ⟨i, hi⟩
  string := iff_of_false nofun fun h => h.2.1 ⟨i, hi⟩
  word := fun w hw h => absurd h (not_mem_of_special? hspecial w hw)
  numeral := fun _ hj => hi.unique hj ▸ hstored
  unchanged := fun _ h => absurd ⟨i, hi⟩ h

/-- What is neither a word nor an integer is stored as it is, as a number or as a string. -/
theorem Typed.of_not_integer (hi : ¬ ∃ i, Integer text.toList i)
    (htype : type = if isNumber text.toList then .float else .string) : Typed text text type := by
  have hspells {type : ScalarType} : ¬ Spells text type := not_spells_of_special? hspecial
  rw [htype]
  exact {
    null := by split_ifs <;> exact iff_of_false nofun hspells
    bool := by split_ifs <;> exact iff_of_false nofun hspells
    int := by split_ifs <;> exact iff_of_false nofun hi
    float := by
      rw [← isNumber_iff]
      split_ifs with h <;> simp [h, hi, hspells]
    string := by
      rw [← isNumber_iff]
      have hnone := not_mem_of_special? hspecial
      split_ifs with h
      · simp [h]
      · simpa [h, hi] using hnone
    word := fun w hw h => absurd h (not_mem_of_special? hspecial w hw)
    numeral := fun i hi' => absurd ⟨i, hi'⟩ hi
    unchanged := fun _ _ => rfl }

end

/-- Every plain scalar has the type and the text of the core schema, but that a plus sign may stand
behind `0x` and `0o`. -/
theorem typed_ofPlain (text : String) : Typed text (ofPlain text).1 (ofPlain text).2 := by
  cases hspecial : special? text with
  | some found =>
    have heq : ofPlain text = found := by simp only [ofPlain, hspecial]
    obtain ⟨w, hw, htext, hstored, htype⟩ := special?_iff.1 hspecial
    rw [heq, ← hstored, ← htype]
    exact .of_word hw htext
  | none =>
    cases hbased : based? text.toList with
    | some found =>
      obtain ⟨base, digits⟩ := found
      cases hn : (unsigned? base digits).filter (· < Node.wordLimit) with
      | some n =>
        have heq : ofPlain text = (toString n, .int) := by simp only [ofPlain, hspecial, hbased, hn]
        have hstored : (toString n).toList = Nat.toDigits 10 n := by
          rw [Nat.toString_eq_ofList_toDigits, String.toList_ofList]
        rw [heq]
        exact .of_integer hspecial ((integer_of_based? hbased).2 ⟨n, hn, rfl⟩)
          (hstored ▸ decimal_toDigits n)
      | none =>
        have heq : ofPlain text = (text, .string) := by simp only [ofPlain, hspecial, hbased, hn]
        rw [heq]
        refine .of_not_integer hspecial ?_ ?_
        · simp [integer_of_based? hbased, hn]
        · rw [isNumber_of_based? hbased, if_neg Bool.false_ne_true]
    | none =>
      by_cases hinteger : isInteger text.toList
      · have heq : ofPlain text = (String.ofList (withoutPlus text.toList), .int) := by
          simp only [ofPlain, hspecial, hbased, hinteger, if_true]
        rw [heq]
        refine .of_integer hspecial ((integer_of_not_based? hbased).2 ⟨hinteger, rfl⟩) ?_
        rw [String.toList_ofList]
        exact decimal_withoutPlus (isInteger_iff.1 hinteger)
      · have heq : ofPlain text = (text, if isNumber text.toList then .float else .string) := by
          simp only [ofPlain, hspecial, hbased, hinteger, if_neg Bool.false_ne_true]
          split_ifs <;> rfl
        rw [heq]
        refine .of_not_integer hspecial ?_ rfl
        simp [integer_of_not_based? hbased, hinteger]

example : ofPlain "0x+1F" = ("31", .int) := by decide

example : ofPlain "-0x1F" = ("-0x1F", .string) := by decide

end RamlTypes.CoreSchema
