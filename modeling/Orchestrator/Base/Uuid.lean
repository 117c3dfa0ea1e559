import Mathlib.Algebra.Group.Int.Defs
import Mathlib.Algebra.Group.Nat.Defs
import Mathlib.Data.List.Induction

/-!
# UUID texts

`UUID(text)` and `str(uuid)` of Python's standard library on Latin-1 texts, with a UUID as its
integer. The reader takes any grouping by hyphens, either case, braces and the URN prefix, and
whatever else `int(text, 16)` takes in the 32 characters that are left.
-/

namespace Orchestrator.Base.Uuid

/-! ### Texts -/

/-- The value of a hexadecimal digit. -/
def digitValue (c : Char) : Option Nat :=
  if '0' ≤ c ∧ c ≤ '9' then some (c.toNat - 48)
  else if 'a' ≤ c ∧ c ≤ 'f' then some (c.toNat - 87)
  else if 'A' ≤ c ∧ c ≤ 'F' then some (c.toNat - 55)
  else none

/-- Hexadecimal digits. -/
def isDigit (c : Char) : Bool := (digitValue c).isSome

/-- White space that `int` skips. -/
def isBlank (c : Char) : Bool :=
  (9 ≤ c.toNat && c.toNat ≤ 13) || c.toNat = 32 || c.toNat = 0x85 || c.toNat = 0xa0

/-- Removes a pattern, after `skip` more characters of an occurrence. -/
def removeFrom (pattern : List Char) : Nat → List Char → List Char
  | _, [] => []
  | skip + 1, _ :: cs => removeFrom pattern skip cs
  | 0, c :: cs =>
    if pattern.isPrefixOf (c :: cs) then removeFrom pattern (pattern.length - 1) cs
    else c :: removeFrom pattern 0 cs

/-- `text.replace(pattern, "")`. -/
def remove (pattern text : List Char) : List Char := removeFrom pattern 0 text

/-- Braces. -/
def isBrace (c : Char) : Bool := c = '{' || c = '}'

/-- `text.strip("{}")`. -/
def stripBraces (text : List Char) : List Char :=
  ((text.dropWhile isBrace).reverse.dropWhile isBrace).reverse

/-! ### Integers -/

/-- Digits with single underscores between them, up to the first other character. -/
def readDigits (underscore : Bool) (n : Nat) : List Char → Option (Nat × List Char)
  | [] => if underscore then none else some (n, [])
  | c :: cs =>
    if c = '_' then if underscore then none else readDigits true n cs
    else (digitValue c).elim (if underscore then none else some (n, c :: cs)) fun d =>
      readDigits false (16 * n + d) cs

/-- A sign and what follows it. -/
def readSign (text : List Char) : Int × List Char :=
  if text.head? = some '-' then (-1, text.drop 1)
  else if text.head? = some '+' then (1, text.drop 1)
  else (1, text)

/-- What follows a base prefix, which may take one underscore with it. -/
def dropPrefix (text : List Char) : List Char :=
  if text[0]? = some '0' ∧ (text[1]? = some 'x' ∨ text[1]? = some 'X') then
    if text[2]? = some '_' then text.drop 3 else text.drop 2
  else text

/-- `int(text, 16)`. -/
def intBase16 (text : List Char) : Option Int :=
  let (sign, unsigned) := readSign (text.dropWhile isBlank)
  let digits := dropPrefix unsigned
  if digits.head?.any isDigit then
    (readDigits false 0 digits).bind fun (n, rest) =>
      if rest.all isBlank then some (sign * n) else none
  else none

/-! ### UUIDs -/

/-- `urn:`. -/
def urn : List Char := ['u', 'r', 'n', ':']

/-- `uuid:`. -/
def scheme : List Char := ['u', 'u', 'i', 'd', ':']

/-- `UUID(text).int`. -/
def parse (text : List Char) : Option Nat :=
  let hex := (stripBraces (remove scheme (remove urn text))).filter fun c => c ≠ '-'
  if hex.length = 32 then
    (intBase16 hex).bind fun n => if 0 ≤ n ∧ n < 2 ^ 128 then some n.toNat else none
  else none

/-- The last `width` hexadecimal digits of a number. -/
def hexDigits : Nat → Nat → List Char
  | 0, _ => []
  | width + 1, n => hexDigits width (n / 16) ++ [Nat.digitChar (n % 16)]

/-- Groups of 8, 4, 4, 4 and the other characters. -/
def hyphenate (hex : List Char) : List Char :=
  hex.take 8 ++ '-' :: ((hex.drop 8).take 4 ++ '-' :: ((hex.drop 12).take 4 ++
    '-' :: ((hex.drop 16).take 4 ++ '-' :: hex.drop 20)))

/-- `str(uuid)`. -/
def format (n : Nat) : List Char := hyphenate (hexDigits 32 n)

/-! ### Values of digits -/

/-- The number that digits write. -/
def value (digits : List Char) : Nat :=
  digits.foldl (fun n c => 16 * n + (digitValue c).getD 0) 0

theorem value_append (xs : List Char) (c : Char) :
    value (xs ++ [c]) = 16 * value xs + (digitValue c).getD 0 := by
  simp [value]

/-- The values of digits by their code points. -/
theorem digitValue_cases {c : Char} {d : Nat} (h : digitValue c = some d) :
    48 ≤ c.toNat ∧ c.toNat ≤ 57 ∧ d = c.toNat - 48 ∨
      97 ≤ c.toNat ∧ c.toNat ≤ 102 ∧ d = c.toNat - 87 ∨
        65 ≤ c.toNat ∧ c.toNat ≤ 70 ∧ d = c.toNat - 55 := by
  simp only [digitValue, Char.le_def, UInt32.le_iff_toNat_le] at h
  split at h
  · next hd => exact Or.inl ⟨hd.1, hd.2, (Option.some.inj h).symm⟩
  · split at h
    · next hd => exact Or.inr (Or.inl ⟨hd.1, hd.2, (Option.some.inj h).symm⟩)
    · split at h
      · next hd => exact Or.inr (Or.inr ⟨hd.1, hd.2, (Option.some.inj h).symm⟩)
      · cases h

/-- A digit is below sixteen. -/
theorem digitValue_lt {c : Char} {d : Nat} (h : digitValue c = some d) : d < 16 := by
  have hd := digitValue_cases h
  omega

/-- A digit is no white space. -/
theorem isBlank_of_isDigit {c : Char} (h : isDigit c = true) : isBlank c = false := by
  obtain ⟨d, hd⟩ := Option.isSome_iff_exists.mp h
  have hc := digitValue_cases hd
  rw [← Bool.not_eq_true]
  intro hb
  simp only [isBlank, Bool.or_eq_true, Bool.and_eq_true, decide_eq_true_eq] at hb
  omega

/-- Digits write a number below the power of sixteen of their length. -/
theorem value_lt (digits : List Char) : value digits < 16 ^ digits.length := by
  induction digits using List.reverseRecOn with
  | nil => simp [value]
  | append_singleton xs c ih =>
    have hd : (digitValue c).getD 0 < 16 := by
      cases hc : digitValue c with
      | none => simp
      | some d => exact digitValue_lt hc
    rw [value_append, List.length_append, List.length_singleton, Nat.pow_succ]
    omega

/-- The sixteen lower case digits have their values. -/
theorem digitValue_digitChar : ∀ d < 16, digitValue (Nat.digitChar d) = some d := by
  decide

theorem length_hexDigits (width n : Nat) : (hexDigits width n).length = width := by
  induction width generalizing n with
  | zero => rfl
  | succ width ih => simp [hexDigits, ih]

/-- Written digits are digits. -/
theorem isDigit_hexDigits {width n : Nat} : ∀ c ∈ hexDigits width n, isDigit c = true := by
  induction width generalizing n with
  | zero => simp [hexDigits]
  | succ width ih =>
    intro c hc
    rw [hexDigits, List.mem_append, List.mem_singleton] at hc
    rcases hc with hc | rfl
    · exact ih c hc
    · rw [isDigit, digitValue_digitChar _ (Nat.mod_lt n (by omega))]
      rfl

/-- Digits that are wide enough write the number back. -/
theorem value_hexDigits {width n : Nat} (h : n < 16 ^ width) : value (hexDigits width n) = n := by
  induction width generalizing n with
  | zero =>
    have hn : n = 0 := by omega
    rw [hn]
    rfl
  | succ width ih =>
    rw [Nat.pow_succ] at h
    rw [hexDigits, value_append, digitValue_digitChar _ (Nat.mod_lt n (by omega)),
      ih (by omega), Option.getD_some]
    omega

/-! ### Spellings -/

/-- A pattern does not occur where its first character does not. -/
theorem remove_eq_self {p : Char} {ps text : List Char} (h : p ∉ text) :
    remove (p :: ps) text = text := by
  rw [remove]
  induction text with
  | nil => rfl
  | cons c cs ih =>
    rw [List.mem_cons, not_or] at h
    have hp : (p :: ps).isPrefixOf (c :: cs) = false := by
      simp [List.isPrefixOf, h.1]
    rw [removeFrom, hp, if_neg Bool.false_ne_true, ih h.2]

/-- The URN forms are reduced to what follows them. -/
theorem remove_schemes {text : List Char} (h : 'u' ∉ text) :
    remove scheme (remove urn text) = text ∧
      remove scheme (remove urn (scheme ++ text)) = text ∧
        remove scheme (remove urn (urn ++ (scheme ++ text))) = text := by
  have hurn : removeFrom urn 0 text = text := remove_eq_self h
  have hscheme : removeFrom scheme 0 text = text := remove_eq_self h
  simp only [urn, scheme] at hurn hscheme
  refine ⟨?_, ?_, ?_⟩ <;>
    simp [remove, urn, scheme, removeFrom, List.isPrefixOf, hurn, hscheme]

/-- Braces around a text without braces are removed. -/
theorem stripBraces_wrapped {opening body closing : List Char}
    (ho : ∀ c ∈ opening, isBrace c = true) (hc : ∀ c ∈ closing, isBrace c = true)
    (hb : ∀ c ∈ body, isBrace c = false) (hne : body ≠ []) :
    stripBraces (opening ++ (body ++ closing)) = body := by
  have hself {text : List Char} (rest : List Char) (ht : ∀ c ∈ text, isBrace c = false)
      (hne : text ≠ []) : (text ++ rest).dropWhile isBrace = text ++ rest := by
    cases text with
    | nil => exact absurd rfl hne
    | cons c cs =>
      rw [List.cons_append, List.dropWhile_cons_of_neg]
      simp [ht c List.mem_cons_self]
  have hback : (body.reverse ++ []).dropWhile isBrace = body.reverse ++ [] :=
    hself [] (fun c h => hb c (List.mem_reverse.mp h)) (by simpa using hne)
  rw [List.append_nil] at hback
  rw [stripBraces, List.dropWhile_append_of_pos ho, hself closing hb hne, List.reverse_append,
    List.dropWhile_append_of_pos fun c h => hc c (List.mem_reverse.mp h), hback,
    List.reverse_reverse]

/-- Digits are read to their end. -/
theorem readDigits_digits {digits : List Char} (h : ∀ c ∈ digits, isDigit c = true)
    (underscore : Bool) (n : Nat) (hne : digits ≠ []) :
    readDigits underscore n digits =
      some (digits.foldl (fun n c => 16 * n + (digitValue c).getD 0) n, []) := by
  induction digits generalizing underscore n with
  | nil => exact absurd rfl hne
  | cons c cs ih =>
    obtain ⟨d, hd⟩ := Option.isSome_iff_exists.mp (h c List.mem_cons_self)
    have hc : c ≠ '_' := by
      rintro rfl
      have hnone : digitValue '_' = none := by decide
      rw [hnone] at hd
      cases hd
    rw [readDigits, if_neg hc, hd, Option.elim_some, List.foldl_cons, hd, Option.getD_some]
    cases cs with
    | nil => rfl
    | cons c' cs' => exact ih (fun x hx => h x (List.mem_cons_of_mem c hx)) _ _ (by simp)

/-- Digits are an integer. -/
theorem intBase16_digits {digits : List Char} (h : ∀ c ∈ digits, isDigit c = true)
    (hne : digits ≠ []) : intBase16 digits = some (value digits : Int) := by
  have hother {c d : Char} (hc : isDigit c = true) (hd : isDigit d = false) : c ≠ d := by
    rintro rfl
    rw [hc] at hd
    cases hd
  cases digits with
  | nil => exact absurd rfl hne
  | cons c cs =>
    have hfirst := h c List.mem_cons_self
    have hdrop : (c :: cs).dropWhile isBlank = c :: cs :=
      List.dropWhile_cons_of_neg (by simp [isBlank_of_isDigit hfirst])
    have hsign : readSign (c :: cs) = (1, c :: cs) := by
      have hminus : c ≠ '-' := hother hfirst (by decide)
      have hplus : c ≠ '+' := hother hfirst (by decide)
      simp [readSign, hminus, hplus]
    have hbase : dropPrefix (c :: cs) = c :: cs := by
      cases cs with
      | nil => simp [dropPrefix]
      | cons c' cs' =>
        have hsecond := h c' (by simp)
        have hx : c' ≠ 'x' := hother hsecond (by decide)
        have hX : c' ≠ 'X' := hother hsecond (by decide)
        simp [dropPrefix, hx, hX]
    have hhead : (c :: cs).head?.any isDigit = true := h c List.mem_cons_self
    simp only [intBase16, hdrop, hsign, hbase, hhead, if_true, readDigits_digits h false 0 hne,
      Option.bind_some, List.all_nil, Int.one_mul]
    rfl

/-- Every spelling of 32 digits: with hyphens anywhere, in braces, and behind a URN scheme. -/
theorem parse_spelling {urnScheme opening body closing : List Char}
    (hs : urnScheme = [] ∨ urnScheme = scheme ∨ urnScheme = urn ++ scheme)
    (ho : ∀ c ∈ opening, isBrace c = true) (hc : ∀ c ∈ closing, isBrace c = true)
    (hb : ∀ c ∈ body, c = '-' ∨ isDigit c = true)
    (hlen : (body.filter fun c => c ≠ '-').length = 32) :
    parse (urnScheme ++ (opening ++ (body ++ closing))) =
      some (value (body.filter fun c => c ≠ '-')) := by
  have hbrace {c : Char} (h : isBrace c = true) : c ≠ 'u' := by
    rintro rfl
    exact absurd h (by decide)
  have hbody : 'u' ∉ opening ++ (body ++ closing) := by
    simp only [List.mem_append, not_or]
    refine ⟨fun h => hbrace (ho _ h) rfl, fun h => ?_, fun h => hbrace (hc _ h) rfl⟩
    rcases hb _ h with h | h <;> exact absurd h (by decide)
  have hremoved : remove scheme (remove urn (urnScheme ++ (opening ++ (body ++ closing)))) =
      opening ++ (body ++ closing) := by
    rcases hs with rfl | rfl | rfl
    · exact (remove_schemes hbody).1
    · exact (remove_schemes hbody).2.1
    · rw [List.append_assoc]
      exact (remove_schemes hbody).2.2
  have hnone : ∀ c ∈ body, isBrace c = false := by
    intro c h
    rw [← Bool.not_eq_true]
    intro hbrace
    simp only [isBrace, Bool.or_eq_true, decide_eq_true_eq] at hbrace
    rcases hb c h with rfl | hdigit
    · exact absurd hbrace (by decide)
    · rcases hbrace with rfl | rfl <;> exact absurd hdigit (by decide)
  have hne : body ≠ [] := by
    rintro rfl
    cases hlen
  have hdigits : ∀ c ∈ body.filter (fun c => c ≠ '-'), isDigit c = true := by
    intro c h
    obtain ⟨hmem, hne⟩ := List.mem_filter.mp h
    exact (hb c hmem).resolve_left (of_decide_eq_true hne)
  have hlt := value_lt (body.filter fun c => c ≠ '-')
  rw [hlen] at hlt
  have hrange : (0 : Int) ≤ value (body.filter fun c => c ≠ '-') ∧
      (value (body.filter fun c => c ≠ '-') : Int) < 2 ^ 128 := by
    refine ⟨Int.natCast_nonneg _, ?_⟩
    have hpow : (16 : Nat) ^ 32 = 2 ^ 128 := by decide
    rw [hpow] at hlt
    exact_mod_cast hlt
  have hfilter : body.filter (fun c => c ≠ '-') ≠ [] := by
    intro h
    rw [h] at hlen
    cases hlen
  unfold parse
  dsimp only
  rw [hremoved, stripBraces_wrapped ho hc hnone hne, if_pos hlen,
    intBase16_digits hdigits hfilter, Option.bind_some, if_pos hrange, Int.toNat_natCast]

/-- What is parsed is a UUID. -/
theorem parse_lt {text : List Char} {n : Nat} (h : parse text = some n) : n < 2 ^ 128 := by
  simp only [parse] at h
  split at h
  · obtain ⟨i, -, hi⟩ := Option.bind_eq_some_iff.mp h
    split at hi
    · next hrange =>
      obtain rfl := Option.some.inj hi
      omega
    · cases hi
  · cases h

/-- Hyphens can be taken out again. -/
theorem filter_hyphenate {hex : List Char} (h : '-' ∉ hex) :
    (hyphenate hex).filter (fun c => c ≠ '-') = hex := by
  have hself {part : List Char} (hsub : ∀ c ∈ part, c ∈ hex) :
      part.filter (fun c => c ≠ '-') = part := by
    rw [List.filter_eq_self]
    rintro c hc
    rw [decide_eq_true_eq]
    rintro rfl
    exact h (hsub _ hc)
  have htake (i : Nat) : ∀ c ∈ (hex.drop i).take 4, c ∈ hex :=
    fun c hc => List.mem_of_mem_drop (List.mem_of_mem_take hc)
  have hjoin (i : Nat) : (hex.drop i).take 4 ++ hex.drop (i + 4) = hex.drop i := by
    rw [← List.drop_drop, List.take_append_drop]
  simp only [hyphenate, List.filter_append, List.filter_cons, ne_eq, not_true_eq_false,
    decide_false, Bool.false_eq_true, if_false]
  rw [hself fun c hc => List.mem_of_mem_take hc, hself (htake 8), hself (htake 12),
    hself (htake 16), hself fun c hc => List.mem_of_mem_drop hc, hjoin 16, hjoin 12, hjoin 8,
    List.take_append_drop]

/-- The text of a UUID has 36 characters. -/
theorem length_format (n : Nat) : (format n).length = 36 := by
  simp [format, hyphenate, length_hexDigits]

/-- The text of a UUID is made of digits and hyphens. -/
theorem mem_format {n : Nat} {c : Char} (hc : c ∈ format n) : c = '-' ∨ isDigit c = true := by
  have hhyphen : '-' ∉ hexDigits 32 n := fun hmem =>
    absurd (isDigit_hexDigits _ hmem) (by decide)
  by_cases hne : c = '-'
  · exact Or.inl hne
  · have hmem : c ∈ (hyphenate (hexDigits 32 n)).filter fun c => c ≠ '-' :=
      List.mem_filter.mpr ⟨hc, decide_eq_true hne⟩
    rw [filter_hyphenate hhyphen] at hmem
    exact Or.inr (isDigit_hexDigits c hmem)

/-- The text of a UUID is an ASCII text. -/
theorem format_ascii {n : Nat} : ∀ c ∈ format n, c.toNat < 128 := by
  intro c hc
  rcases mem_format hc with rfl | h
  · decide
  · obtain ⟨d, hd⟩ := Option.isSome_iff_exists.mp h
    have hcases := digitValue_cases hd
    omega

/-- A UUID is read back from its text. -/
theorem parse_format {n : Nat} (h : n < 2 ^ 128) : parse (format n) = some n := by
  have hfilter : (format n).filter (fun c => c ≠ '-') = hexDigits 32 n :=
    filter_hyphenate fun hmem => absurd (isDigit_hexDigits _ hmem) (by decide)
  have hparse : parse ([] ++ ([] ++ (format n ++ []))) = _ :=
    parse_spelling (Or.inl rfl) (by simp) (by simp) (fun c => mem_format)
      (by rw [hfilter, length_hexDigits])
  rw [List.nil_append, List.nil_append, List.append_nil, hfilter,
    value_hexDigits (by omega)] at hparse
  exact hparse

/-- UUIDs have different texts. -/
theorem format_inj {m n : Nat} (hm : m < 2 ^ 128) (hn : n < 2 ^ 128) (h : format m = format n) :
    m = n := by
  have hparse := parse_format hm
  rw [h, parse_format hn, Option.some.injEq] at hparse
  exact hparse.symm

end Orchestrator.Base.Uuid
