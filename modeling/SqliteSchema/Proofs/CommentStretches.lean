import SqliteSchema.Proofs.SpacedCells
import SqliteSchema.Proofs.TokenScans

/-!
A source text as a row of stretches: single characters outside quotes, quoted runs, and
comments that reach to the end of their line. Removing the comments leaves the other
stretches as they are, and what is left falls into just these again: the ends of the lines
stay between what stood on both sides of a comment, so no comment and no quoted run comes
about that was not there before.
-/
namespace SqliteSchema.Proofs.CommentStretches

open PlainText Quoting DelimiterScan ClauseTokens CommentStripping BalancedTexts QuotedRuns
  SpacedCells TokenScans

inductive Stretch where
  | plain (c : Char)
  | quoted (text : Text)
  | comment (text : Text)
  deriving DecidableEq

def Stretch.text : Stretch → Text
  | .plain c => [c]
  | .quoted text => text
  | .comment text => text

def Stretch.isKept : Stretch → Bool
  | .comment _ => false
  | _ => true

def Stretch.quoted? : Stretch → Option Text
  | .quoted text => some text
  | _ => none

def startsComment (c : Char) (rest : Text) : Bool := c == '-' && rest.head? == some '-'

def isInLine (c : Char) : Bool := c != '\n'

/-- The stretches of a text. A quoted run ends at the first delimiter that is not doubled,
or with the text, and whatever it holds belongs to it. -/
def stretches : Text → List Stretch
  | [] => []
  | c :: rest =>
      if startsComment c rest then
        .comment (c :: rest.takeWhile isInLine) :: stretches (rest.dropWhile isInLine)
      else
        match closingDelimiter? c with
        | none => .plain c :: stretches rest
        | some close =>
            match _ : closeQuote? close rest with
            | none => [.quoted (c :: rest)]
            | some (run, after) => .quoted (c :: run) :: stretches after
termination_by text => text.length
decreasing_by
  · exact Nat.lt_succ_of_le (List.dropWhile_suffix isInLine).length_le
  · exact Nat.lt_succ_self _
  · have hlength := congrArg List.length
      (closeQuote?_append ‹closeQuote? close rest = some (run, after)›)
    simp only [List.length_append, List.length_cons] at hlength ⊢
    omega

def keptText (row : List Stretch) : Text := (row.filter Stretch.isKept).flatMap Stretch.text

/-- The quoted runs that begin outside comments, with their delimiters. -/
def quotedRuns (text : Text) : List Text := (stretches text).filterMap Stretch.quoted?

theorem keptText_nil : keptText [] = [] := rfl

theorem keptText_plain (c : Char) (row : List Stretch) :
    keptText (.plain c :: row) = c :: keptText row := rfl

theorem keptText_quoted (text : Text) (row : List Stretch) :
    keptText (.quoted text :: row) = text ++ keptText row := rfl

theorem keptText_comment (text : Text) (row : List Stretch) :
    keptText (.comment text :: row) = keptText row := rfl

variable {c close : Char} {rest run after : Text}

theorem stretches_nil : stretches [] = [] := by rw [stretches]

theorem stretches_plain (hcomment : startsComment c rest = false)
    (hplain : closingDelimiter? c = none) :
    stretches (c :: rest) = .plain c :: stretches rest := by
  rw [stretches, if_neg (by simp [hcomment])]
  simp only [hplain]

theorem stretches_quoted (hcomment : startsComment c rest = false)
    (hclose : closingDelimiter? c = some close)
    (hread : closeQuote? close rest = some (run, after)) :
    stretches (c :: rest) = .quoted (c :: run) :: stretches after := by
  rw [stretches, if_neg (by simp [hcomment])]
  simp only [hclose]
  split <;> simp_all

theorem stretches_unclosed (hcomment : startsComment c rest = false)
    (hclose : closingDelimiter? c = some close) (hread : closeQuote? close rest = none) :
    stretches (c :: rest) = [.quoted (c :: rest)] := by
  rw [stretches, if_neg (by simp [hcomment])]
  simp only [hclose]
  split <;> simp_all

/-- The stretches of a text make up the text. -/
theorem flatMap_text_stretches (text : Text) : (stretches text).flatMap Stretch.text = text := by
  fun_induction stretches text with
  | case1 => rfl
  | case2 c rest hcomment ih =>
    rw [List.flatMap_cons, ih, Stretch.text, List.cons_append, List.takeWhile_append_dropWhile]
  | case3 c rest hcomment hplain ih => rw [List.flatMap_cons, ih]; rfl
  | case4 c rest hcomment close hclose hopen => simp [Stretch.text]
  | case5 c rest hcomment close hclose run after hread ih =>
    rw [List.flatMap_cons, ih, Stretch.text, List.cons_append, closeQuote?_append hread]

theorem ne_of_isCloser {close : Char} (h : isCloser close = true) :
    close ≠ '-' ∧ close ≠ '\n' := by
  constructor <;> rintro rfl <;> exact absurd h (by decide)

theorem ne_dash_of_closingDelimiter? {c close : Char} (h : closingDelimiter? c = some close) :
    c ≠ '-' := by
  rintro rfl
  simp [closingDelimiter?] at h

theorem startsComment_of_ne {c : Char} (h : c ≠ '-') (rest : Text) :
    startsComment c rest = false := by
  simp [startsComment, h]

/-- Inside a comment everything up to the end of the line is dropped. -/
theorem commentsDropped_inLine (scan : Scan) (text : Text) :
    commentsDropped scan true text = commentsDropped scan false (text.dropWhile isInLine) := by
  induction text with
  | nil => rfl
  | cons c rest ih =>
    by_cases hline : isInLine c = true
    · have hinside : (true && c != '\n') = true := hline
      rw [List.dropWhile_cons_of_pos hline, ← ih, commentsDropped, if_pos hinside]
    · obtain rfl : c = '\n' := by simpa [isInLine] using hline
      rw [List.dropWhile_cons_of_neg hline]
      simp [commentsDropped]

theorem commentsDropped_of_startsComment {scan : Scan} (hscan : scan.mode = .plain) {c : Char}
    {rest : Text} (h : startsComment c rest = true) :
    commentsDropped scan false (c :: rest) =
      commentsDropped scan false (rest.dropWhile isInLine) := by
  have hdashes : c = '-' ∧ rest.head? = some '-' ∧ scan.insideRun = false := by
    simpa [startsComment, Scan.insideRun, hscan] using h
  rw [commentsDropped, Bool.false_and, if_neg (by simp), if_pos hdashes, commentsDropped_inLine]

/-- A character that begins no comment is kept. -/
theorem commentsDropped_cons {scan : Scan} {c : Char} {rest : Text}
    (h : startsComment c rest = false ∨ scan.insideRun = true) :
    commentsDropped scan false (c :: rest) = c :: commentsDropped (scan.step c) false rest := by
  have hkept : ¬(c = '-' ∧ rest.head? = some '-' ∧ scan.insideRun = false) := by
    rintro ⟨rfl, hhead, hinside⟩
    rcases h with h | h
    · simp [startsComment, hhead] at h
    · simp [hinside] at h
  rw [commentsDropped, Bool.false_and, if_neg (by simp), if_neg hkept]

/-- What a quoted run holds is kept, dashes and doubled delimiters included. -/
theorem commentsDropped_double (hclose : isCloser close = true) (depth : Option Nat)
    (inside after : Text) :
    commentsDropped ⟨.quoted close, depth⟩ false (double close inside ++ after) =
      double close inside ++ commentsDropped ⟨.quoted close, depth⟩ false after := by
  induction inside with
  | nil => rfl
  | cons c rest ih =>
    by_cases hc : c = close
    · subst hc
      have hmark : ∀ rest, startsComment c rest = false :=
        startsComment_of_ne (ne_of_isCloser hclose).1
      rw [double_cons_self, List.cons_append, List.cons_append,
        commentsDropped_cons (.inl (hmark _)), step_quoted_self,
        commentsDropped_cons (.inl (hmark _)), step_closed_self, ih]
      rfl
    · rw [double_cons_of_ne hc, List.cons_append, commentsDropped_cons (.inr rfl),
        step_quoted_of_ne hc, ih]
      rfl

/-- Behind a quoted run that has ended comments are removed as if no run had been there. -/
theorem commentsDropped_closed (hclose : isCloser close = true) (depth : Option Nat)
    {inComment : Bool} {after : Text} (hafter : inComment = true ∨ after.head? ≠ some close) :
    commentsDropped ⟨.closed close, depth⟩ inComment after =
      commentsDropped ⟨.plain, depth⟩ inComment after := by
  induction after generalizing inComment with
  | nil => rfl
  | cons c rest ih =>
    have hcomment := ih (.inl rfl)
    rw [commentsDropped, commentsDropped, hcomment]
    by_cases hinside : (inComment && c != '\n') = true
    · rw [if_pos hinside, if_pos hinside]
    · have hne : c ≠ close := by
        rcases hafter with rfl | hhead
        · have hnewline : c = '\n' := by simpa using hinside
          exact hnewline ▸ (ne_of_isCloser hclose).2.symm
        · simpa using hhead
      rw [step_closed_of_ne hne]
      rfl

/-- A quoted run is kept, and comments are removed behind it as if no run had been there. -/
theorem commentsDropped_closeQuote? (hclose : isCloser close = true)
    (hread : closeQuote? close rest = some (run, after)) (depth : Option Nat) :
    commentsDropped ⟨.quoted close, depth⟩ false rest =
      run ++ commentsDropped ⟨.plain, depth⟩ false after := by
  have hafter := head?_of_closeQuote? hread
  rw [← closeQuote?_append hread]
  obtain ⟨inside, rfl⟩ := exists_double_of_closeQuote? hread
  rw [List.append_assoc, commentsDropped_double hclose, List.singleton_append,
    commentsDropped_cons (.inr rfl), step_quoted_self,
    commentsDropped_closed hclose _ (.inr hafter), List.append_assoc, List.singleton_append]

/-- A quoted run that ends with the text is kept. -/
theorem commentsDropped_closeQuote?_eq_none (hclose : isCloser close = true)
    (hread : closeQuote? close rest = none) (depth : Option Nat) :
    commentsDropped ⟨.quoted close, depth⟩ false rest = rest := by
  obtain ⟨inside, rfl⟩ := exists_double_of_closeQuote?_eq_none hread
  have hdouble := commentsDropped_double hclose depth inside []
  rwa [List.append_nil, commentsDropped, List.append_nil] at hdouble

/-- Outside quotes the comments are dropped and the other stretches are kept. -/
theorem commentsDropped_eq_keptText {scan : Scan} (hscan : scan.mode = .plain) (text : Text) :
    commentsDropped scan false text = keptText (stretches text) := by
  fun_induction stretches text generalizing scan with
  | case1 => rfl
  | case2 c rest hcomment ih =>
    rw [commentsDropped_of_startsComment hscan hcomment, ih hscan, keptText_comment]
  | case3 c rest hcomment hplain ih =>
    have hstep : (scan.step c).mode = .plain := by
      simp [Scan.step, hscan, Mode.next, Mode.opened, hplain]
    rw [commentsDropped_cons (.inl (by simpa using hcomment)), ih hstep, keptText_plain]
  | case4 c rest hcomment close hclose hread =>
    have hcloser := isCloser_of_closingDelimiter? hclose
    rw [commentsDropped_cons (.inl (by simpa using hcomment)), step_opening hscan hclose,
      commentsDropped_closeQuote?_eq_none hcloser hread, keptText_quoted, keptText_nil,
      List.append_nil]
  | case5 c rest hcomment close hclose run after hread ih =>
    have hcloser := isCloser_of_closingDelimiter? hclose
    rw [commentsDropped_cons (.inl (by simpa using hcomment)), step_opening hscan hclose,
      commentsDropped_closeQuote? hcloser hread, ih rfl, keptText_quoted, List.cons_append]

theorem withoutComments_eq_keptText (text : Text) :
    withoutComments text = keptText (stretches text) := commentsDropped_eq_keptText rfl text

/-- What is kept of a text begins as the text does, or with the end of a line. -/
theorem head?_keptText {text : Text} {c : Char} (h : (keptText (stretches text)).head? = some c) :
    c = '\n' ∨ text.head? = some c := by
  rw [← withoutComments_eq_keptText] at h
  rcases head?_commentsDropped h with hnewline | ⟨-, hhead⟩
  · exact .inl hnewline
  · exact .inr hhead

theorem stretches_keptText (text : Text) :
    stretches (keptText (stretches text)) = (stretches text).filter Stretch.isKept := by
  fun_induction stretches text with
  | case1 => exact stretches_nil
  | case2 c rest hcomment ih => exact ih
  | case3 c rest hcomment hplain ih =>
    have hstays : startsComment c (keptText (stretches rest)) = false := by
      by_contra hstarts
      simp only [startsComment, Bool.not_eq_false, Bool.and_eq_true, beq_iff_eq] at hcomment hstarts
      rcases head?_keptText hstarts.2 with hnewline | hhead
      · exact absurd hnewline (by decide)
      · exact hcomment ⟨hstarts.1, hhead⟩
    rw [keptText_plain, stretches_plain hstays hplain, ih]
    rfl
  | case4 c rest hcomment close hclose hread =>
    rw [keptText_quoted, keptText_nil, List.append_nil,
      stretches_unclosed (by simpa using hcomment) hclose hread]
    rfl
  | case5 c rest hcomment close hclose run after hread ih =>
    obtain ⟨inside, rfl⟩ := exists_double_of_closeQuote? hread
    have hnext : (keptText (stretches after)).head? ≠ some close := by
      intro hhead
      rcases head?_keptText hhead with hnewline | hafter
      · exact (ne_of_isCloser (isCloser_of_closingDelimiter? hclose)).2 hnewline
      · exact head?_of_closeQuote? hread hafter
    have hagain : closeQuote? close (double close inside ++ [close] ++ keptText (stretches after)) =
        some (double close inside ++ [close], keptText (stretches after)) := by
      rw [List.append_assoc]
      exact closeQuote?_double close inside hnext
    have hopening : ∀ rest, startsComment c rest = false :=
      startsComment_of_ne (ne_dash_of_closingDelimiter? hclose)
    rw [keptText_quoted, List.cons_append, stretches_quoted (hopening _) hclose hagain, ih]
    rfl

/-- Removing comments drops no end of a line. -/
theorem count_newline_commentsDropped (scan : Scan) (inComment : Bool) (text : Text) :
    (commentsDropped scan inComment text).count '\n' = text.count '\n' := by
  induction text generalizing scan inComment with
  | nil => rfl
  | cons c rest ih =>
    rw [commentsDropped]
    split_ifs with hinside hcomment
    · have hne : c ≠ '\n' := by
        simp only [Bool.and_eq_true, bne_iff_ne] at hinside
        exact hinside.2
      rw [ih, List.count_cons_of_ne hne]
    · rw [ih, hcomment.1, List.count_cons_of_ne (by decide)]
    · rw [List.count_cons, List.count_cons, ih]

theorem filterMap_quoted?_filter (row : List Stretch) :
    (row.filter Stretch.isKept).filterMap Stretch.quoted? = row.filterMap Stretch.quoted? := by
  rw [List.filterMap_filter]
  refine List.filterMap_congr ?_
  intro stretch _
  cases stretch <;> rfl

/-- Removing comments removes just these: what is left is made of the other stretches of the
text, in order, and is read as these stretches. So there are no two dashes outside quotes
in it, the ends of lines and the quoted runs are all still there, and nothing changes where
there is no comment, as on a second removal. -/
theorem withoutComments_stretches (text : Text) :
    withoutComments (withoutComments text) = withoutComments text ∧
    IsSpaced isDash (cells (withoutComments text)) ∧
    (withoutComments text).count '\n' = text.count '\n' ∧
    (withoutComments text = text ↔ IsSpaced isDash (cells text)) ∧
    (stretches text).flatMap Stretch.text = text ∧
    withoutComments text = keptText (stretches text) ∧
    stretches (withoutComments text) = (stretches text).filter Stretch.isKept ∧
    quotedRuns (withoutComments text) = quotedRuns text := by
  have hspaced : IsSpaced isDash (cells (withoutComments text)) :=
    isSpaced_commentsDropped isReachable_start false text
  have hstretches : stretches (withoutComments text) = (stretches text).filter Stretch.isKept := by
    rw [withoutComments_eq_keptText, stretches_keptText]
  refine ⟨withoutComments_eq_self_iff.mpr hspaced, hspaced, ?_, withoutComments_eq_self_iff,
    flatMap_text_stretches text, withoutComments_eq_keptText text, hstretches, ?_⟩
  · exact count_newline_commentsDropped start false text
  · rw [quotedRuns, hstretches, filterMap_quoted?_filter, quotedRuns]

end SqliteSchema.Proofs.CommentStretches
