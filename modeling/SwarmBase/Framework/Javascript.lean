import Mathlib.Data.Rat.Defs
import Mathlib.Data.List.TakeWhile

/-!
# JavaScript numbers and values

The part of JavaScript that decoding a rendered value needs.

* `JsNumber` — a number value: `NaN`, an infinity, or a rational (the value before it is rounded
  to a double, which is exact for the integers below `2 ^ 53`);
* `JsNumber.ofString` — `Number(s)` on a string, the grammar `StringNumericLiteral`: white space
  around a decimal literal with an optional sign, fraction and exponent, `Infinity`, or an
  unsigned hexadecimal, octal or binary integer. Anything else is `NaN`;
* `JsValue` — `undefined`, strings and plain objects, with property access and truthiness;
* `groupThousands` — a decimal numeral with a comma between groups of three digits.

A comma is in no numeric literal (`ofString_of_comma`), and a plain decimal numeral is read as
its value (`ofString_toDigits`), so a grouped numeral is read back exactly if it is too short to
be grouped (`ofString_groupThousands`).
-/

namespace Framework

/-! ### Numerals with grouped digits -/

/-- Separate the digits of a reversed numeral in groups of three. -/
def groupThousandsRev : List Char → List Char
  | a :: b :: c :: d :: rest => a :: b :: c :: ',' :: groupThousandsRev (d :: rest)
  | ds => ds

/-- A comma between groups of three digits, counted from the right. -/
def groupThousands (ds : List Char) : List Char := (groupThousandsRev ds.reverse).reverse

theorem groupThousandsRev_of_length_le :
    ∀ {ds : List Char}, ds.length ≤ 3 → groupThousandsRev ds = ds
  | [], _ => rfl
  | [_], _ => rfl
  | [_, _], _ => rfl
  | [_, _, _], _ => rfl
  | _ :: _ :: _ :: _ :: rest, h => absurd h (by simp)

theorem groupThousands_of_length_le {ds : List Char} (h : ds.length ≤ 3) :
    groupThousands ds = ds := by
  rw [groupThousands, groupThousandsRev_of_length_le (by simpa using h), List.reverse_reverse]

theorem comma_mem_groupThousands {ds : List Char} (h : 3 < ds.length) :
    ',' ∈ groupThousands ds := by
  rw [groupThousands, List.mem_reverse]
  rw [← List.length_reverse] at h
  match ds.reverse, h with
  | a :: b :: c :: d :: rest, _ => simp [groupThousandsRev]

theorem filter_groupThousandsRev {ds : List Char} (h : ∀ d ∈ ds, d ≠ ',') :
    (groupThousandsRev ds).filter (· ≠ ',') = ds := by
  have hkeep : ∀ d, d ≠ ',' → ∀ ds, (d :: ds).filter (· ≠ ',') = d :: ds.filter (· ≠ ',') :=
    fun d hd ds => List.filter_cons_of_pos (decide_eq_true hd)
  fun_induction groupThousandsRev ds with
  | case1 a b c d rest ih =>
    have hcomma : ∀ ds, (',' :: ds).filter (· ≠ ',') = ds.filter (· ≠ ',') :=
      fun ds => List.filter_cons_of_neg (by simp)
    obtain ⟨ha, hb, hc, hrest⟩ : a ≠ ',' ∧ b ≠ ',' ∧ c ≠ ',' ∧ ∀ e ∈ d :: rest, e ≠ ',' := by
      simpa only [List.forall_mem_cons] using h
    rw [hkeep a ha, hkeep b hb, hkeep c hc, hcomma, ih hrest]
  | case2 ds _ => exact List.filter_eq_self.mpr fun d hd => decide_eq_true (h d hd)

/-- Without the commas a grouped numeral is the numeral. -/
theorem filter_groupThousands {ds : List Char} (h : ∀ d ∈ ds, d ≠ ',') :
    (groupThousands ds).filter (· ≠ ',') = ds := by
  unfold groupThousands
  rw [List.filter_reverse, filter_groupThousandsRev fun d hd => h d (List.mem_reverse.mp hd),
    List.reverse_reverse]

/-! ### Numbers -/

/-- A JavaScript number. -/
inductive JsNumber where
  | nan
  | infinity (negative : Bool)
  | val (q : ℚ)
  deriving DecidableEq

namespace JsNumber

/-- `Number.isFinite`. -/
def IsFinite : JsNumber → Prop
  | .val _ => True
  | _ => False

/-- The characters `StrWhiteSpace` is made of. -/
def isWhiteSpace (c : Char) : Bool :=
  c.toNat ∈ [0x9, 0xA, 0xB, 0xC, 0xD, 0x20, 0xA0, 0x1680, 0x2000, 0x2001, 0x2002, 0x2003, 0x2004,
    0x2005, 0x2006, 0x2007, 0x2008, 0x2009, 0x200A, 0x2028, 0x2029, 0x202F, 0x205F, 0x3000, 0xFEFF]

/-- The string without white space at its ends. -/
def trim (cs : List Char) : List Char :=
  ((cs.dropWhile isWhiteSpace).reverse.dropWhile isWhiteSpace).reverse

/-- A nonempty string of decimal digits, as its value. -/
def digits? (cs : List Char) : Option ℕ :=
  if cs ≠ [] ∧ cs.all Char.isDigit then some (Nat.ofDigitChars 10 cs 0) else none

/-- The exponent of a decimal literal, after its `e`. -/
def exponent? : List Char → Option ℤ
  | '+' :: ds => (digits? ds).map Int.ofNat
  | '-' :: ds => (digits? ds).map fun n => -Int.ofNat n
  | ds => (digits? ds).map Int.ofNat

/-- What follows the fraction of a decimal literal: nothing, or an exponent. -/
def scale? (mantissa : ℚ) : List Char → Option ℚ
  | [] => some mantissa
  | e :: ds => if e = 'e' ∨ e = 'E' then (exponent? ds).map fun k => mantissa * 10 ^ k else none

/-- `StrUnsignedDecimalLiteral`, but for `Infinity`. -/
def unsigned? (cs : List Char) : Option ℚ :=
  let int := cs.takeWhile Char.isDigit
  match cs.dropWhile Char.isDigit with
  | '.' :: ds =>
    let frac := ds.takeWhile Char.isDigit
    if int ++ frac = [] then none
    else scale? (Nat.ofDigitChars 10 (int ++ frac) 0 / 10 ^ frac.length) (ds.dropWhile Char.isDigit)
  | rest => if int = [] then none else scale? (Nat.ofDigitChars 10 int 0) rest

/-- `StrUnsignedDecimalLiteral` with a sign given. -/
def signed? (negative : Bool) (cs : List Char) : Option JsNumber :=
  if cs = "Infinity".toList then some (.infinity negative)
  else (unsigned? cs).map fun q => .val (if negative then -q else q)

/-- `StrDecimalLiteral`. -/
def decimal? : List Char → Option JsNumber
  | '+' :: cs => signed? false cs
  | '-' :: cs => signed? true cs
  | cs => signed? false cs

/-- The value of a digit, `36` for any other character. -/
def digitValue (c : Char) : ℕ :=
  if c.isDigit then c.toNat - '0'.toNat
  else if 'a' ≤ c ∧ c ≤ 'z' then c.toNat - 'a'.toNat + 10
  else if 'A' ≤ c ∧ c ≤ 'Z' then c.toNat - 'A'.toNat + 10
  else 36

/-- The radix a `0x`, `0o` or `0b` prefix announces. -/
def radix? (c : Char) : Option ℕ :=
  if c = 'x' ∨ c = 'X' then some 16
  else if c = 'o' ∨ c = 'O' then some 8
  else if c = 'b' ∨ c = 'B' then some 2
  else none

/-- The digits of a `NonDecimalIntegerLiteral`. -/
def radixDigits? (radix : ℕ) (ds : List Char) : Option JsNumber :=
  if ds ≠ [] ∧ ds.all fun c => digitValue c < radix then
    some (.val ((ds.foldl (fun n c => radix * n + digitValue c) 0 : ℕ) : ℚ))
  else none

/-- `StringNumericLiteral` without its white space; `none` is a syntax error. -/
def literal? : List Char → Option JsNumber
  | [] => some (.val 0)
  | '0' :: p :: ds =>
    match radix? p with
    | some radix => radixDigits? radix ds
    -- a leading zero is allowed
    | none => decimal? ('0' :: p :: ds)
  | cs => decimal? cs

/-- `Number(s)` on a string. -/
def ofString (s : String) : JsNumber := (literal? (trim s.toList)).getD .nan

/-! ### A comma is in no numeric literal -/

theorem comma_mem_trim {cs : List Char} (h : ',' ∈ cs) : ',' ∈ trim cs := by
  -- dropping white space stops at the comma
  have hkeep : ∀ {ds : List Char}, ',' ∈ ds → ',' ∈ ds.dropWhile isWhiteSpace := by
    intro ds hds
    rw [← List.takeWhile_append_dropWhile (p := isWhiteSpace) (l := ds)] at hds
    rcases List.mem_append.mp hds with htake | hdrop
    · exact absurd (List.mem_takeWhile_imp htake) (by decide)
    · exact hdrop
  rw [trim, List.mem_reverse]
  exact hkeep (List.mem_reverse.mpr (hkeep h))

/-- The digits in front of a comma do not reach it. -/
theorem comma_mem_dropWhile_isDigit {cs : List Char} (h : ',' ∈ cs) :
    ',' ∈ cs.dropWhile Char.isDigit := by
  rw [← List.takeWhile_append_dropWhile (p := Char.isDigit) (l := cs)] at h
  rcases List.mem_append.mp h with htake | hdrop
  · exact absurd (List.mem_takeWhile_imp htake) (by decide)
  · exact hdrop

theorem digits?_of_comma {cs : List Char} (h : ',' ∈ cs) : digits? cs = none := by
  refine if_neg fun hc => ?_
  exact absurd (List.all_eq_true.mp hc.2 ',' h) (by decide)

theorem exponent?_of_comma {cs : List Char} (h : ',' ∈ cs) : exponent? cs = none := by
  unfold exponent?
  split
  · rw [digits?_of_comma (by simpa using h)]; rfl
  · rw [digits?_of_comma (by simpa using h)]; rfl
  · rw [digits?_of_comma h]; rfl

theorem scale?_of_comma {q : ℚ} {cs : List Char} (h : ',' ∈ cs) : scale? q cs = none := by
  cases cs with
  | nil => cases h
  | cons e ds =>
    rcases List.mem_cons.mp h with rfl | hds
    · rfl
    · rw [scale?, exponent?_of_comma hds, Option.map_none, ite_self]

theorem unsigned?_of_comma {cs : List Char} (h : ',' ∈ cs) : unsigned? cs = none := by
  have hrest := comma_mem_dropWhile_isDigit h
  unfold unsigned?
  split
  -- behind a decimal point, the comma is in what follows the fraction
  · next ds hds =>
    rw [hds] at hrest
    have hfrac : ',' ∈ ds := by simpa using hrest
    simp only [scale?_of_comma (comma_mem_dropWhile_isDigit hfrac), ite_self]
  · simp only [scale?_of_comma hrest, ite_self]

theorem signed?_of_comma {negative : Bool} {cs : List Char} (h : ',' ∈ cs) :
    signed? negative cs = none := by
  have hne : cs ≠ "Infinity".toList := by
    rintro rfl
    exact absurd h (by decide)
  rw [signed?, if_neg hne, unsigned?_of_comma h, Option.map_none]

theorem decimal?_of_comma {cs : List Char} (h : ',' ∈ cs) : decimal? cs = none := by
  unfold decimal?
  split
  · exact signed?_of_comma (by simpa using h)
  · exact signed?_of_comma (by simpa using h)
  · exact signed?_of_comma h

theorem radixDigits?_of_comma {radix : ℕ} {ds : List Char} (hr : radix ≤ 36) (h : ',' ∈ ds) :
    radixDigits? radix ds = none := by
  refine if_neg fun hc => ?_
  -- no radix goes up to the value of a character that is no digit
  have hval := List.all_eq_true.mp hc.2 ',' h
  have h36 : digitValue ',' = 36 := by decide
  rw [h36, decide_eq_true_eq] at hval
  omega

theorem radix?_le {c : Char} {radix : ℕ} (h : radix? c = some radix) : radix ≤ 36 := by
  unfold radix? at h
  split_ifs at h <;> (obtain rfl := Option.some.inj h; decide)

theorem literal?_of_comma {cs : List Char} (h : ',' ∈ cs) : literal? cs = none := by
  unfold literal?
  split
  · cases h
  · next p ds =>
    cases hp : radix? p with
    | none => exact decimal?_of_comma h
    | some radix =>
      -- neither the `0` nor the prefix letter is the comma
      have hne : ',' ≠ p := by
        rintro rfl
        cases hp
      refine radixDigits?_of_comma (radix?_le hp) ?_
      simpa [hne] using h
  · exact decimal?_of_comma h

/-- `Number` of a string with a comma is `NaN`. -/
theorem ofString_of_comma {s : String} (h : ',' ∈ s.toList) : ofString s = .nan := by
  rw [ofString, literal?_of_comma (comma_mem_trim h), Option.getD_none]

/-! ### A decimal numeral is read as its value -/

theorem isWhiteSpace_of_isDigit {c : Char} (h : c.isDigit) : isWhiteSpace c = false := by
  rw [Char.isDigit_iff_toNat] at h
  have hlo : 48 ≤ c.toNat := h.1
  have hhi : c.toNat ≤ 57 := h.2
  refine decide_eq_false fun hmem => ?_
  simp only [List.mem_cons, List.not_mem_nil, or_false] at hmem
  omega

theorem trim_digits {cs : List Char} (h : ∀ c ∈ cs, c.isDigit) : trim cs = cs := by
  have hkeep : ∀ {ds : List Char}, (∀ c ∈ ds, c.isDigit) → ds.dropWhile isWhiteSpace = ds := by
    intro ds hds
    cases ds with
    | nil => rfl
    | cons c ds =>
      rw [List.dropWhile_cons_of_neg]
      simpa using isWhiteSpace_of_isDigit (hds c (by simp))
  rw [trim, hkeep h, hkeep (fun c hc => h c (List.mem_reverse.mp hc)), List.reverse_reverse]

theorem unsigned?_digits {cs : List Char} (hne : cs ≠ []) (h : ∀ c ∈ cs, c.isDigit) :
    unsigned? cs = some ((Nat.ofDigitChars 10 cs 0 : ℕ) : ℚ) := by
  have htake : cs.takeWhile Char.isDigit = cs := List.takeWhile_eq_self_iff.mpr h
  have hdrop : cs.dropWhile Char.isDigit = [] := List.dropWhile_eq_nil_iff.mpr h
  simp only [unsigned?, hdrop, htake, if_neg hne, scale?]

theorem decimal?_digits {cs : List Char} (hne : cs ≠ []) (h : ∀ c ∈ cs, c.isDigit) :
    decimal? cs = some (.val (Nat.ofDigitChars 10 cs 0 : ℕ)) := by
  have hsigned : signed? false cs = some (.val (Nat.ofDigitChars 10 cs 0 : ℕ)) := by
    have hinf : cs ≠ "Infinity".toList := by
      rintro rfl
      exact absurd (h 'I' (by decide)) (by decide)
    rw [signed?, if_neg hinf, unsigned?_digits hne h]
    rfl
  unfold decimal?
  split
  -- a digit is no sign
  · exact absurd (h '+' (by simp)) (by decide)
  · exact absurd (h '-' (by simp)) (by decide)
  · exact hsigned

theorem literal?_digits {cs : List Char} (hne : cs ≠ []) (h : ∀ c ∈ cs, c.isDigit) :
    literal? cs = some (.val (Nat.ofDigitChars 10 cs 0 : ℕ)) := by
  unfold literal?
  split
  · exact absurd rfl hne
  · next p ds =>
    -- a digit announces no radix
    have hp : radix? p = none := by
      have hd : p.toNat ≤ 57 := (Char.isDigit_iff_toNat.mp (h p (by simp))).2
      have hletter : ∀ c : Char, 57 < c.toNat → p ≠ c := by
        rintro c hc rfl
        omega
      simp [radix?, hletter]
    rw [hp]
    exact decimal?_digits (by simp) h
  · exact decimal?_digits hne h

theorem digits?_toDigits (n : ℕ) : digits? (Nat.toDigits 10 n) = some n := by
  have hdigit : ∀ c ∈ Nat.toDigits 10 n, c.isDigit :=
    fun c hc => Nat.isDigit_of_mem_toDigits (by decide) (by decide) hc
  unfold digits?
  rw [if_pos ⟨Nat.toDigits_ne_nil, List.all_eq_true.mpr hdigit⟩, Nat.ofDigitChars_ten_toDigits]

theorem digits?_groupThousands (n : ℕ) :
    digits? ((groupThousands (Nat.toDigits 10 n)).filter (· ≠ ',')) = some n := by
  have hcomma : ∀ c ∈ Nat.toDigits 10 n, c ≠ ',' := by
    rintro c hc rfl
    exact absurd (Nat.isDigit_of_mem_toDigits (by decide) (by decide) hc) (by decide)
  rw [filter_groupThousands hcomma, digits?_toDigits]

/-- `Number` of the decimal numeral of `n` is `n`. -/
theorem ofString_toDigits (n : ℕ) : ofString (String.ofList (Nat.toDigits 10 n)) = .val n := by
  have hdigit : ∀ c ∈ Nat.toDigits 10 n, c.isDigit :=
    fun c hc => Nat.isDigit_of_mem_toDigits (by decide) (by decide) hc
  rw [ofString, String.toList_ofList, trim_digits hdigit,
    literal?_digits Nat.toDigits_ne_nil hdigit, Nat.ofDigitChars_ten_toDigits, Option.getD_some]

/-- A grouped numeral is read back as its value exactly if it is too short to be grouped. -/
theorem ofString_groupThousands (n : ℕ) :
    ofString (String.ofList (groupThousands (Nat.toDigits 10 n))) =
      if n < 1000 then .val n else .nan := by
  have hlen : (Nat.toDigits 10 n).length ≤ 3 ↔ n < 10 ^ 3 :=
    Nat.length_toDigits_le_iff (by decide) (by decide)
  -- up to three digits stay as they are, and from four on there is a comma
  split_ifs with hn
  · rw [groupThousands_of_length_le (hlen.mpr hn), ofString_toDigits]
  · refine ofString_of_comma ?_
    rw [String.toList_ofList]
    exact comma_mem_groupThousands (Nat.lt_of_not_le (mt hlen.mp hn))

end JsNumber

/-! ### Values -/

/-- A JavaScript value: `undefined`, a string, or a plain object with its own properties. -/
inductive JsValue where
  | undefined
  | str (s : String)
  | obj (fields : List (String × JsValue))

namespace JsValue

/-- `v[key]`; `none` is the `TypeError` of reading a property of `undefined`. Of the properties
of a string only its characters are modelled. -/
def get? (v : JsValue) (key : String) : Option JsValue :=
  match v with
  | .undefined => none
  | .str s =>
    -- a canonical index of one of its characters
    match (List.range s.toList.length).find? fun i => i.repr = key with
    | some i => some (.str (String.ofList (s.toList[i]?.toList)))
    | none => some .undefined
  | .obj fields => some ((fields.lookup key).getD .undefined)

/-- `Object.keys(v)`; `none` is the `TypeError` on `undefined`. -/
def keys? : JsValue → Option (List String)
  | .undefined => none
  | .str s => some ((List.range s.toList.length).map Nat.repr)
  | .obj fields => some (fields.map Prod.fst)

/-- Whether a condition takes the value as true. -/
def truthy : JsValue → Bool
  | .undefined => false
  | .str s => s ≠ ""
  | .obj _ => true

/-- `Number(v)`. An object converts through its text `[object Object]`, which is no numeral. -/
def toNumber : JsValue → JsNumber
  | .undefined => .nan
  | .str s => JsNumber.ofString s
  | .obj _ => .nan

/-- A string has no property named by anything but an index. -/
theorem get?_str_of_not_isDigit {s key : String} {c : Char} (hc : c ∈ key.toList)
    (h : c.isDigit = false) : (JsValue.str s).get? key = some .undefined := by
  have hnone : ((List.range s.toList.length).find? fun i => i.repr = key) = none := by
    refine List.find?_eq_none.mpr fun i _ hi => ?_
    have hi : i.repr = key := of_decide_eq_true hi
    rw [← hi, Nat.toList_repr] at hc
    have hdigit := Nat.isDigit_of_mem_toDigits (by decide) (by decide) hc
    rw [h] at hdigit
    cases hdigit
  simp only [get?, hnone]

end JsValue

end Framework
