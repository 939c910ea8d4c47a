import Mathlib.Data.List.Forall2
import SqliteSchema.TypeArguments
import SqliteSchema.Proofs.BalancedTexts
import SqliteSchema.Proofs.KeywordTokens

/-!
The arguments of a type as they are written: one or two integers in decimal digits, a
comma between them and perhaps a space behind the comma. Reading them gives the size
back, for every signed word of 64 bits.
-/
namespace SqliteSchema.Proofs.TypeSizes

open PlainText DelimiterScan TypeArguments BalancedTexts KeywordTokens

def IsNumeral (c : Char) : Prop := isNeutral c = true ∧ isBlank c = false ∧ c ≠ ','

theorem isNumeral_of_isDigit {c : Char} (hc : c.isDigit = true) :
    IsNumeral c ∧ c ≠ '-' ∧ c ≠ '+' :=
  forall_of_isDigit (fun c => (isNeutral c = true ∧ isBlank c = false ∧ c ≠ ',') ∧ c ≠ '-' ∧
    c ≠ '+') (by decide +kernel) hc

theorem natural?_eq_some_iff {digits : Text} {count : Nat} :
    natural? digits = some count ↔
      digits ≠ [] ∧ (∀ c ∈ digits, c.isDigit = true) ∧ Nat.ofDigitChars 10 digits 0 = count := by
  have hvalue : digits.foldl (fun value c => 10 * value + (c.toNat - '0'.toNat)) 0 =
      Nat.ofDigitChars 10 digits 0 := rfl
  rw [natural?, hvalue, Option.ite_none_right_eq_some, Option.some.injEq, Bool.and_eq_true,
    List.all_eq_true, Bool.not_eq_true', List.isEmpty_eq_false_iff, and_assoc]

abbrev Word := { value : Int // inWord value = true }

def decimalText (value : Int) : Text :=
  if value < 0 then '-' :: Nat.toDigits 10 value.natAbs else Nat.toDigits 10 value.natAbs

theorem isNumeral_of_mem_decimalText {value : Int} {c : Char} (hc : c ∈ decimalText value) :
    IsNumeral c := by
  have hdigit : c ∈ Nat.toDigits 10 value.natAbs → IsNumeral c := fun h =>
    (isNumeral_of_isDigit (Nat.isDigit_of_mem_toDigits (by decide) (by decide) h)).1
  unfold decimalText at hc
  split at hc
  · rcases List.mem_cons.mp hc with rfl | h
    · exact ⟨by decide, by decide, by decide⟩
    · exact hdigit h
  · exact hdigit hc

inductive Sign where
  | none
  | plus
  | minus

def Sign.text : Sign → Text
  | .none => []
  | .plus => ['+']
  | .minus => ['-']

def Sign.value (sign : Sign) (count : Nat) : Int :=
  match sign with
  | .minus => -count
  | .none | .plus => count

inductive IsNumber : Text → Int → Prop
  | signed (sign : Sign) {digits : Text} (hfilled : digits ≠ [])
      (hdigits : ∀ c ∈ digits, c.isDigit = true)
      (hlower : Int64.minValue.toInt ≤ sign.value (Nat.ofDigitChars 10 digits 0))
      (hupper : sign.value (Nat.ofDigitChars 10 digits 0) ≤ Int64.maxValue.toInt) :
      IsNumber (sign.text ++ digits) (sign.value (Nat.ofDigitChars 10 digits 0))

theorem inWord_iff (value : Int) :
    inWord value = true ↔ Int64.minValue.toInt ≤ value ∧ value ≤ Int64.maxValue.toInt := by
  have hlower : Int64.minValue.toInt = -9223372036854775808 := by decide
  have hupper : Int64.maxValue.toInt = 9223372036854775807 := by decide
  rw [hlower, hupper, inWord, Bool.and_eq_true, decide_eq_true_eq, decide_eq_true_eq]

/-- A text that begins with a digit has no sign. -/
theorem integer?_of_isDigit {first : Char} {rest : Text} (hfirst : first.isDigit = true) :
    integer? (first :: rest) =
      ((natural? (first :: rest)).map Int.ofNat).filter inWord := by
  obtain ⟨-, hminus, hplus⟩ := isNumeral_of_isDigit hfirst
  simp [integer?, hminus, hplus]

theorem integer?_minus (digits : Text) :
    integer? ('-' :: digits) = ((natural? digits).map Sign.minus.value).filter inWord := by
  simp only [integer?]
  cases natural? digits <;> rfl

/-- Every text is read as a sign, if it begins with one, and digits. -/
theorem exists_sign (text : Text) :
    ∃ (sign : Sign) (digits : Text), text = sign.text ++ digits ∧
      integer? text = ((natural? digits).map sign.value).filter inWord := by
  unfold integer?
  split
  · rename_i digits
    exact ⟨.minus, digits, rfl, integer?_minus digits⟩
  · rename_i digits
    exact ⟨.plus, digits, rfl, rfl⟩
  · exact ⟨.none, text, rfl, rfl⟩

theorem integer?_signed (sign : Sign) {digits : Text} (hfilled : digits ≠ [])
    (hdigits : ∀ c ∈ digits, c.isDigit = true) :
    integer? (sign.text ++ digits) = ((natural? digits).map sign.value).filter inWord := by
  cases sign with
  | none =>
    obtain ⟨first, rest, rfl⟩ := List.exists_cons_of_ne_nil hfilled
    exact integer?_of_isDigit (hdigits first (List.mem_cons_self ..))
  | plus => rfl
  | minus => exact integer?_minus digits

theorem integer?_eq_some_iff {text : Text} {value : Int} :
    integer? text = some value ↔ IsNumber text value := by
  constructor
  · intro h
    obtain ⟨sign, digits, rfl, hread⟩ := exists_sign text
    rw [hread, Option.filter_eq_some_iff, inWord_iff] at h
    obtain ⟨hvalue, hlower, hupper⟩ := h
    obtain ⟨count, hcount, rfl⟩ := Option.map_eq_some_iff.mp hvalue
    obtain ⟨hfilled, hdigits, rfl⟩ := natural?_eq_some_iff.mp hcount
    exact .signed sign hfilled hdigits hlower hupper
  · rintro ⟨sign, hfilled, hdigits, hlower, hupper⟩
    have hcount := natural?_eq_some_iff.mpr ⟨hfilled, hdigits, rfl⟩
    rw [integer?_signed sign hfilled hdigits, hcount, Option.filter_eq_some_iff, inWord_iff]
    exact ⟨rfl, hlower, hupper⟩

/-- The sign and the digits of an integer. -/
theorem exists_decimalText_eq (value : Int) :
    ∃ sign : Sign, decimalText value = sign.text ++ Nat.toDigits 10 value.natAbs ∧
      sign.value value.natAbs = value := by
  by_cases hnegative : value < 0
  · refine ⟨.minus, if_pos hnegative, ?_⟩
    simp only [Sign.value]
    omega
  · refine ⟨.none, if_neg hnegative, ?_⟩
    simp only [Sign.value]
    omega

theorem integer?_decimalText (word : Word) : integer? (decimalText word) = some word.val := by
  obtain ⟨value, hword⟩ := word
  obtain ⟨sign, htext, hvalue⟩ := exists_decimalText_eq value
  have hdigits : Nat.ofDigitChars 10 (Nat.toDigits 10 value.natAbs) 0 = value.natAbs :=
    Nat.ofDigitChars_toDigits (by decide) (by decide)
  have hrange := (inWord_iff value).mp hword
  have hnumber : IsNumber (sign.text ++ Nat.toDigits 10 value.natAbs)
      (sign.value (Nat.ofDigitChars 10 (Nat.toDigits 10 value.natAbs) 0)) := by
    refine .signed sign (by simp) ?_ ?_ ?_
    · exact fun c hc => Nat.isDigit_of_mem_toDigits (by decide) (by decide) hc
    · rw [hdigits, hvalue]
      exact hrange.1
    · rw [hdigits, hvalue]
      exact hrange.2
  rw [hdigits, hvalue] at hnumber
  rw [integer?_eq_some_iff, htext]
  exact hnumber

/-- The length, or else the precision and the scale, that stand between commas. -/
inductive Measures (arguments : Text) : Option Int → Option (Int × Int) → Prop
  | length {part : Text} {count : Int} (hparts : arguments.splitOn ',' = [part])
      (h : IsNumber (trim part) count) : Measures arguments (some count) none
  | decimal {first second : Text} {precision scale : Int}
      (hparts : arguments.splitOn ',' = [first, second]) (hfirst : IsNumber (trim first) precision)
      (hsecond : IsNumber (trim second) scale) : Measures arguments none (some (precision, scale))

/-- A list is read into the values of its items, and only where each item can be read. -/
theorem mapM_eq_some_iff {α β : Type} {read : α → Option β} {items : List α} {values : List β} :
    items.mapM read = some values ↔
      List.Forall₂ (fun item value => read item = some value) items values := by
  induction items generalizing values with
  | nil =>
    rw [List.mapM_nil, List.forall₂_nil_left_iff, Option.pure_def, Option.some.injEq, eq_comm]
  | cons item rest ih =>
    rw [List.mapM_cons, List.forall₂_cons_left_iff]
    constructor
    · intro h
      obtain ⟨value, hvalue, h⟩ := Option.bind_eq_some_iff.mp h
      obtain ⟨more, hmore, h⟩ := Option.bind_eq_some_iff.mp h
      obtain rfl := Option.some.inj h
      exact ⟨value, more, hvalue, ih.mp hmore, rfl⟩
    · rintro ⟨value, more, hvalue, hmore, rfl⟩
      rw [hvalue, ih.mpr hmore]
      rfl

theorem measures_of_typeSize? {arguments : Text} {size : TypeSize}
    (h : typeSize? arguments = some size) : Measures arguments size.length? size.decimal? := by
  unfold typeSize? at h
  split at h
  · rename_i count hnumbers
    obtain rfl := Option.some.inj h
    obtain ⟨part, more, hcount, hmore, hparts⟩ :=
      List.forall₂_cons_right_iff.mp (mapM_eq_some_iff.mp hnumbers)
    obtain rfl := List.forall₂_nil_right_iff.mp hmore
    exact .length hparts (integer?_eq_some_iff.mp hcount)
  · rename_i precision scale hnumbers
    obtain rfl := Option.some.inj h
    obtain ⟨first, more, hprecision, hmore, hparts⟩ :=
      List.forall₂_cons_right_iff.mp (mapM_eq_some_iff.mp hnumbers)
    obtain ⟨second, rest, hscale, hrest, rfl⟩ := List.forall₂_cons_right_iff.mp hmore
    obtain rfl := List.forall₂_nil_right_iff.mp hrest
    exact .decimal hparts (integer?_eq_some_iff.mp hprecision) (integer?_eq_some_iff.mp hscale)
  · simp at h

/-- Arguments give a size exactly where they measure it. -/
theorem typeSize?_eq_some_iff {arguments : Text} {size : TypeSize} :
    typeSize? arguments = some size ↔ Measures arguments size.length? size.decimal? := by
  refine ⟨measures_of_typeSize?, fun h => ?_⟩
  unfold typeSize?
  cases size with
  | unsized => cases h
  | length count =>
    cases h with
    | length hparts hcount =>
      have hread := integer?_eq_some_iff.mpr hcount
      simp [hparts, hread]
  | decimal precision scale =>
    cases h with
    | decimal hparts hfirst hsecond =>
      have hprecision := integer?_eq_some_iff.mpr hfirst
      have hscale := integer?_eq_some_iff.mpr hsecond
      simp [hparts, hprecision, hscale]

theorem exists_typeSize? {arguments : Text} {length? : Option Int} {decimal? : Option (Int × Int)}
    (h : Measures arguments length? decimal?) : ∃ size, typeSize? arguments = some size := by
  cases h with
  | @length _ count hparts h =>
    exact ⟨.length count, typeSize?_eq_some_iff.mpr (.length hparts h)⟩
  | @decimal _ _ precision scale hparts hfirst hsecond =>
    exact ⟨.decimal precision scale, typeSize?_eq_some_iff.mpr (.decimal hparts hfirst hsecond)⟩

theorem typeSize?_eq_none_iff {arguments : Text} :
    typeSize? arguments = none ↔ ∀ length? decimal?, ¬ Measures arguments length? decimal? := by
  constructor
  · intro hnone length? decimal? h
    obtain ⟨size, hsize⟩ := exists_typeSize? h
    simp [hnone] at hsize
  · intro h
    cases hread : typeSize? arguments with
    | none => rfl
    | some size => exact absurd (measures_of_typeSize? hread) (h _ _)

inductive SizeArguments where
  | length (count : Word)
  | decimal (spaced : Bool) (precision scale : Word)

def SizeArguments.size : SizeArguments → TypeSize
  | .length count => .length count
  | .decimal _ precision scale => .decimal precision scale

def SizeArguments.parts : SizeArguments → List Text
  | .length count => [decimalText count]
  | .decimal spaced precision scale =>
      [decimalText precision, (if spaced then [' '] else []) ++ decimalText scale]

def SizeArguments.text (arguments : SizeArguments) : Text := [','].intercalate arguments.parts

theorem trim_of_visible {text : Text} (h : ∀ c ∈ text, isBlank c = false) : trim text = text := by
  have hdrop : ∀ part : Text, (∀ c ∈ part, isBlank c = false) → part.dropWhile isBlank = part := by
    intro part hpart
    cases part with
    | nil => rfl
    | cons c rest => exact List.dropWhile_cons_of_neg (by simp [hpart c (List.mem_cons_self ..)])
  have hreverse : ∀ c ∈ text.reverse, isBlank c = false := by
    intro c hc
    exact h c (List.mem_reverse.mp hc)
  rw [trim, hdrop text h, trimEnd, hdrop _ hreverse, List.reverse_reverse]

theorem integer?_trim (spaced : Bool) (word : Word) :
    integer? (trim ((if spaced then [' '] else []) ++ decimalText word)) = some word.val := by
  have hvisible : trim (decimalText word) = decimalText word :=
    trim_of_visible fun c hc => (isNumeral_of_mem_decimalText hc).2.1
  cases spaced with
  | false => rw [if_neg (by simp), List.nil_append, hvisible, integer?_decimalText]
  | true =>
    have hspace : trim (' ' :: decimalText word) = trim (decimalText word) := by
      rw [trim, List.dropWhile_cons_of_pos (by decide), trim]
    rw [if_pos rfl, List.singleton_append, hspace, hvisible, integer?_decimalText]

theorem notMem_of_mem_parts {arguments : SizeArguments} :
    ∀ part ∈ arguments.parts, ',' ∉ part := by
  have hnumber : ∀ word : Word, ',' ∉ decimalText word := fun word hc =>
    (isNumeral_of_mem_decimalText hc).2.2 rfl
  cases arguments with
  | length count => simpa [SizeArguments.parts] using hnumber count
  | decimal spaced precision scale =>
    cases spaced <;> simpa [SizeArguments.parts] using ⟨hnumber precision, hnumber scale⟩

theorem typeSize?_text (arguments : SizeArguments) :
    typeSize? arguments.text = some arguments.size := by
  have hfilled : arguments.parts ≠ [] := by cases arguments <;> simp [SizeArguments.parts]
  have hparts : arguments.text.splitOn ',' = arguments.parts :=
    List.splitOn_intercalate ',' notMem_of_mem_parts hfilled
  rw [typeSize?, hparts]
  cases arguments with
  | length count =>
    have hcount := integer?_trim false count
    simp only [if_neg Bool.false_ne_true, List.nil_append] at hcount
    simp [SizeArguments.parts, SizeArguments.size, hcount]
  | decimal spaced precision scale =>
    have hprecision := integer?_trim false precision
    simp only [if_neg Bool.false_ne_true, List.nil_append] at hprecision
    simp only [SizeArguments.parts, List.mapM_cons, List.mapM_nil, hprecision,
      integer?_trim spaced scale]
    rfl

/-- Nothing in the arguments opens or closes anything. -/
theorem isNeutral_of_mem_text {arguments : SizeArguments} {c : Char}
    (hc : c ∈ arguments.text) : isNeutral c = true := by
  have hnumber : ∀ {word : Word}, c ∈ decimalText word → isNeutral c = true := fun h =>
    (isNumeral_of_mem_decimalText h).1
  cases arguments with
  | length count =>
    simp only [SizeArguments.text, SizeArguments.parts, List.intercalate_singleton] at hc
    exact hnumber hc
  | decimal spaced precision scale =>
    simp only [SizeArguments.text, SizeArguments.parts, List.intercalate_cons_cons,
      List.intercalate_singleton, List.mem_append, List.mem_singleton] at hc
    rcases hc with (hc | rfl) | hc | hc
    · exact hnumber hc
    · decide
    · cases spaced with
      | false => simp at hc
      | true =>
        rw [if_pos rfl, List.mem_singleton] at hc
        rw [hc]
        decide
    · exact hnumber hc

theorem isBalanced_text (arguments : SizeArguments) : isBalanced arguments.text = true := by
  have hinert : ∀ c ∈ arguments.text, isInert c = true := fun _ hc =>
    isInert_of_isNeutral (isNeutral_of_mem_text hc)
  rw [isBalanced, (cellsFrom_word (show start.mode = .plain from rfl) hinert).1]
  rfl

end SqliteSchema.Proofs.TypeSizes
