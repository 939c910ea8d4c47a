import SqliteSchema.Proofs.CanonicalDumps

/-!
How a dump splits into statements. A comment leaves no trace: the scan for quotes stands
still in it, so the dump splits as if the line ended where the comment begins. And
splitting is stable: the statements of a dump, put together with semicolons at the ends of
lines, are a dump of just these statements.
-/
namespace SqliteSchema.Proofs.DumpSplitting

open PlainText DelimiterScan ClauseSplitting CommentStripping SchemaDumps BalancedTexts
  SqueezedPieces NormalPieces SpacedCells TableReading CanonicalDumps

/-- Where a text does not end with a dash, what follows it has its comments removed apart
from it: by the scan of what is left of the text, and inside a comment or not. -/
theorem exists_commentsDropped_append (scan : Scan) (inComment : Bool) {left : Text}
    (hlast : left.getLast? ≠ some '-') :
    ∃ inside, ∀ right, commentsDropped scan inComment (left ++ right) =
      commentsDropped scan inComment left ++
        commentsDropped (scan.run (commentsDropped scan inComment left)) inside right := by
  induction left generalizing scan inComment with
  | nil => exact ⟨inComment, fun right => rfl⟩
  | cons c rest ih =>
    have hrest : rest.getLast? ≠ some '-' := by
      cases rest with
      | nil => simp
      | cons d more => rwa [List.getLast?_cons_cons] at hlast
    -- Only a dash looks at the character after it, and the last character is no dash.
    have hdash : ∀ right : Text, (c = '-' ∧ (rest ++ right).head? = some '-' ∧
        scan.insideRun = false) = (c = '-' ∧ rest.head? = some '-' ∧ scan.insideRun = false) := by
      intro right
      cases rest with
      | nil =>
        have hne : c ≠ '-' := by simpa using hlast
        simp [hne]
      | cons d more => rfl
    by_cases hinside : (inComment && c != '\n') = true
    · obtain ⟨inside, hih⟩ := ih scan true hrest
      refine ⟨inside, fun right => ?_⟩
      rw [List.cons_append, commentsDropped, if_pos hinside, commentsDropped, if_pos hinside, hih]
    by_cases hcomment : c = '-' ∧ rest.head? = some '-' ∧ scan.insideRun = false
    · obtain ⟨inside, hih⟩ := ih scan true hrest
      refine ⟨inside, fun right => ?_⟩
      rw [List.cons_append, commentsDropped, if_neg hinside, if_pos (by rwa [hdash]),
        commentsDropped, if_neg hinside, if_pos hcomment, hih]
    · obtain ⟨inside, hih⟩ := ih (scan.step c) false hrest
      refine ⟨inside, fun right => ?_⟩
      rw [List.cons_append, commentsDropped, if_neg hinside, if_neg (by rwa [hdash]),
        commentsDropped, if_neg hinside, if_neg hcomment, hih]
      rfl

/-- A comment is dropped to the end of its line. -/
theorem commentsDropped_line (scan : Scan) {comment : Text} (hcomment : '\n' ∉ comment)
    (after : Text) :
    commentsDropped scan true (comment ++ '\n' :: after) =
      '\n' :: commentsDropped (scan.step '\n') false after := by
  induction comment with
  | nil => simp [commentsDropped]
  | cons c rest ih =>
    rw [List.mem_cons, not_or] at hcomment
    have hinside : (true && c != '\n') = true := by simpa using Ne.symm hcomment.1
    rw [List.cons_append, commentsDropped, if_pos hinside, ih hcomment.2]

/-- Outside quotes a comment and the end of its line are read as the end of the line,
inside another comment too. -/
theorem commentsDropped_comment {scan : Scan} (hscan : scan.insideRun = false) (inside : Bool)
    {comment : Text} (hcomment : '\n' ∉ comment) (after : Text) :
    commentsDropped scan inside ('-' :: '-' :: (comment ++ '\n' :: after)) =
      commentsDropped scan inside ('\n' :: after) := by
  have hfree : '\n' ∉ '-' :: comment := by simpa using hcomment
  have hrest := commentsDropped_line scan hfree after
  have hnewline : commentsDropped scan inside ('\n' :: after) =
      '\n' :: commentsDropped (scan.step '\n') false after := by simp [commentsDropped]
  rw [List.cons_append] at hrest
  rw [hnewline, commentsDropped]
  split_ifs with hinside hdash
  · exact hrest
  · exact hrest
  · exact absurd ⟨rfl, rfl, hscan⟩ hdash

/-- A comment outside quotes changes nothing in the statements of a dump, nor in the fault
of a dump that cannot be split, whatever the comment holds. -/
theorem dumpStatements_comment {before comment : Text} (hcomment : '\n' ∉ comment)
    (hlast : before.getLast? ≠ some '-')
    (houtside : (start.run (withoutComments before)).insideRun = false) (after : Text) :
    dumpStatements (before ++ "--".toList ++ comment ++ '\n' :: after) =
      dumpStatements (before ++ '\n' :: after) := by
  obtain ⟨inside, hbefore⟩ := exists_commentsDropped_append start false hlast
  have hremoved : withoutComments (before ++ '-' :: '-' :: (comment ++ '\n' :: after)) =
      withoutComments (before ++ '\n' :: after) := by
    unfold withoutComments at houtside ⊢
    rw [hbefore, hbefore, commentsDropped_comment houtside inside hcomment]
  have hshape : before ++ "--".toList ++ comment ++ '\n' :: after =
      before ++ '-' :: '-' :: (comment ++ '\n' :: after) := by
    have hdashes : "--".toList = ['-', '-'] := rfl
    simp [hdashes]
  rw [hshape, dumpStatements, dumpStatements, hremoved]

/-- A comment right behind a quoted value, with quotes, a parenthesis, a separator and
dashes of its own, before a value with dashes in it. -/
theorem dumpStatements_comment_behindQuote :
    '\n' ∉ "- it's \"(; -- `[".toList ∧
      "CREATE TABLE t (a DEFAULT 'x'".toList.getLast? ≠ some '-' ∧
      (start.run (withoutComments "CREATE TABLE t (a DEFAULT 'x'".toList)).insideRun = false ∧
      dumpStatements ("CREATE TABLE t (a DEFAULT 'x'".toList ++ "--".toList ++
          "- it's \"(; -- `[".toList ++ '\n' :: ", b DEFAULT '--');".toList) =
        dumpStatements ("CREATE TABLE t (a DEFAULT 'x'".toList ++
          '\n' :: ", b DEFAULT '--');".toList) := by
  have hcomment : '\n' ∉ "- it's \"(; -- `[".toList := by decide
  have hlast : "CREATE TABLE t (a DEFAULT 'x'".toList.getLast? ≠ some '-' := by decide
  have houtside : (start.run (withoutComments "CREATE TABLE t (a DEFAULT 'x'".toList)).insideRun =
      false := by decide +kernel
  exact ⟨hcomment, hlast, houtside, dumpStatements_comment hcomment hlast houtside _⟩

/-- A statement with neither a comment nor a separator outside quotes, and with one space
wherever it has a gap. -/
structure IsPlainStatement (statement : Text) : Prop where
  uncommented : IsSpaced isDash (cells statement)
  undivided : ∀ cell ∈ cells statement, isSeparator ';' cell = false
  spaces : ∀ cell ∈ cells statement, isGap cell = true → cell.char = ' '
  single : IsSpaced isGap (cells statement)

theorem isPlainStatement_of_isCanonical {statement : Text} (h : IsCanonical statement) :
    IsPlainStatement statement :=
  ⟨h.uncommented, h.undivided, fun _ => char_of_isGap_of_isTight h.tight,
    isSpaced_isGap_of_isTight h.tight⟩

/-- Between statements that have no comments a semicolon and a new line bring in none. -/
theorem isSpaced_intercalate {statements : List Text}
    (h : ∀ statement ∈ statements, IsCanonical statement) :
    IsSpaced isDash (cells ([';', '\n'].intercalate statements)) := by
  induction statements with
  | nil => exact .nil
  | cons statement rest ih =>
    obtain ⟨hstatement, hrest⟩ := List.forall_mem_cons.mp h
    cases rest with
    | nil => simpa using hstatement.uncommented
    | cons next more =>
      have hsemicolon : isNeutral ';' = true := by decide
      have hnewline : isNeutral '\n' = true := by decide
      rw [List.intercalate_cons_cons, List.append_assoc, List.cons_append, List.cons_append,
        List.nil_append, cells_append_cons hstatement.balanced hsemicolon, cells_cons hnewline]
      exact isSpaced_append_cons hstatement.uncommented (isDash_of_ne (by decide) start)
        (isSpaced_cons (isDash_of_ne (by decide) start) (ih hrest))

/-- The statements of a dump come back from a dump that is made of them, and each of them
is as plain as a statement can be. -/
theorem dumpStatements_intercalate {source : Text} {statements : List Text}
    (h : dumpStatements source = .ok statements) :
    dumpStatements ([';', '\n'].intercalate statements) = .ok statements ∧
      ∀ statement ∈ statements, IsPlainStatement statement := by
  have hcanonical : ∀ statement ∈ statements, IsCanonical statement :=
    fun _ => isCanonical_of_dumpStatements h
  have hnormal : ∀ statement ∈ statements, IsNormal ';' statement :=
    fun _ => isNormal_of_mem isSeparating_semicolon h
  have hnewline : ∀ c ∈ ['\n'], isBlank c = true := List.forall_mem_singleton.mpr (by decide)
  refine ⟨?_, fun statement hmem => isPlainStatement_of_isCanonical (hcanonical statement hmem)⟩
  rw [dumpStatements, withoutComments_eq_self_iff.mpr (isSpaced_intercalate hcanonical)]
  exact separate_intercalate isSeparating_semicolon hnewline hnormal

def unevenDump : Text :=
  "-- it's;\nCREATE TABLE t(a-- (\n  text\tDEFAULT '--;  ');;\n\nCREATE INDEX i ON t (a - -a)".toList

def unevenStatements : List Text :=
  ["CREATE TABLE t(a text DEFAULT '--;  ')".toList, "CREATE INDEX i ON t (a - -a)".toList]

theorem dumpStatements_intercalate_unevenDump :
    dumpStatements unevenDump = .ok unevenStatements ∧
      dumpStatements ([';', '\n'].intercalate unevenStatements) = .ok unevenStatements ∧
      ∀ statement ∈ unevenStatements, IsPlainStatement statement := by
  have hdump : dumpStatements unevenDump = .ok unevenStatements :=
    eq_ok_of_toOption (by decide +kernel)
  exact ⟨hdump, dumpStatements_intercalate hdump⟩

end SqliteSchema.Proofs.DumpSplitting
