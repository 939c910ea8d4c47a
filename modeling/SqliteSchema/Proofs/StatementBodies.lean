import SqliteSchema.Proofs.PieceTokens
import SqliteSchema.Proofs.TableReading
import SqliteSchema.Proofs.TypeSizes

/-!
Statements and their bodies. A text has a body or lacks one for one of two reasons. A
body that is taken out splits into clauses with tokens, and its columns can be read
exactly where the group after a type holds one or two integers.
-/
namespace SqliteSchema.Proofs.StatementBodies

open PlainText Quoting DelimiterScan Faults ClauseSplitting ClauseTokens StatementHeaders
  TypeArguments ColumnDefinitions IndexDefinitions TableDefinitions FirstGroups NormalPieces
  PieceTokens TableReading TypeSizes

def HasBody (text : Text) : Prop :=
  isBalanced text = true ∧ ∃ cell ∈ cells text, opensGroup cell = true

inductive LacksBody (statement rest : Text) : Fault → Prop
  | unbalanced (h : isBalanced rest = false) : LacksBody statement rest (.unbalanced rest)
  | noBody (h : IsGroupless rest) : LacksBody statement rest (.noBody statement)

def bodyClauses (text : Text) : List Text :=
  match firstGroup? text with
  | none => []
  | some group => pieces ',' group.body

/-- The body of a statement splits into clauses, none of which is without tokens. -/
theorem separateClauses_of_parenthesized {text : Text} {group : Parenthesized}
    (h : parenthesized text = .ok (some group)) :
    separateClauses group.body = .ok (pieces ',' group.body) ∧
      ∀ clause ∈ pieces ',' group.body, tokensOf clause ≠ [] := by
  obtain ⟨-, -, -, hbody, -⟩ := exists_of_parenthesized h
  refine ⟨separate_eq_ok_iff.mpr ⟨hbody, rfl⟩, ?_⟩
  intro clause hclause hempty
  have hnormal := separate_eq_ok_iff.mp (isNormal_of_mem_pieces isSeparating_comma hbody hclause)
  have hblank : pieces ',' clause = [] := by
    have hruns := map_shape_pieces hnormal.1
    rw [hempty] at hruns
    simpa [clauseRuns, isFilled] using hruns
  rw [hblank] at hnormal
  simp at hnormal

theorem exists_of_hasBody {text : Text} (h : HasBody text) :
    ∃ group, parenthesized text = .ok (some group) ∧
      separateClauses group.body = .ok (bodyClauses text) ∧
      ∀ clause ∈ bodyClauses text, tokensOf clause ≠ [] := by
  obtain ⟨hbalanced, cell, hcell, hopens⟩ := h
  cases hgroup : firstGroup? text with
  | none =>
    have hnone : parenthesized text = .ok none := by
      rw [parenthesized, if_pos hbalanced, hgroup]
    have hfree := (isGroupless_of_parenthesized hnone).2 cell hcell
    simp [hopens] at hfree
  | some group =>
    have hsome : parenthesized text = .ok (some group) := by
      rw [parenthesized, if_pos hbalanced, hgroup]
    have hbody : bodyClauses text = pieces ',' group.body := by rw [bodyClauses, hgroup]
    rw [hbody]
    exact ⟨group, hsome, separateClauses_of_parenthesized hsome⟩

theorem hasBody_or_lacksBody (statement rest : Text) :
    HasBody rest ∨ ∃ fault, LacksBody statement rest fault := by
  by_cases hbalanced : isBalanced rest = true
  · by_cases hopens : ∃ cell ∈ cells rest, opensGroup cell = true
    · exact .inl ⟨hbalanced, hopens⟩
    · exact .inr ⟨_, .noBody ⟨hbalanced, by simpa using hopens⟩⟩
  · exact .inr ⟨_, .unbalanced (by simpa using hbalanced)⟩

theorem not_hasBody_of_lacksBody {statement rest : Text} {fault : Fault}
    (h : LacksBody statement rest fault) : ¬ HasBody rest := by
  rintro ⟨hbalanced, cell, hcell, hopens⟩
  cases h with
  | unbalanced h => simp [hbalanced] at h
  | noBody h => simp [h.2 cell hcell] at hopens

theorem readBody_of_hasBody {header : IndexHeading} (h : HasBody header.rest) (statement : Text) :
    ∃ index, readBody statement header = .ok index := by
  obtain ⟨group, hgroup, hclauses, -⟩ := exists_of_hasBody h
  rw [readBody, hgroup]
  exact ⟨_, bind_eq_ok.mpr ⟨_, rfl, bind_eq_ok.mpr ⟨_, hclauses, rfl⟩⟩⟩

theorem readBody_of_lacksBody {statement : Text} {header : IndexHeading} {fault : Fault}
    (h : LacksBody statement header.rest fault) : readBody statement header = .error fault := by
  cases h with
  | unbalanced h =>
    rw [readBody, parenthesized_of_unbalanced h]
    rfl
  | noBody h =>
    rw [readBody, parenthesized_of_isGroupless h]
    rfl

def isTypeSize (arguments : Text) : Bool :=
  (arguments.splitOn ',').length ≤ 2 &&
    (arguments.splitOn ',').all fun argument => (integer? (trim argument)).isSome

/-- The group after the type words, if there is one, holds a size. -/
def hasTypeSize (clause : Text) : Bool :=
  (typePart (tokensOf clause).tail).arguments.all fun group => isTypeSize group.inside

theorem isSome_mapM {α β : Type} (read : α → Option β) (items : List α) :
    (items.mapM read).isSome = items.all fun item => (read item).isSome := by
  induction items with
  | nil => rfl
  | cons item rest ih =>
    rw [List.mapM_cons, List.all_cons, ← ih]
    cases read item <;> cases rest.mapM read <;> rfl

/-- Arguments give a size exactly where there are one or two of them, all of them numbers. -/
theorem isSome_typeSize? (arguments : Text) :
    (typeSize? arguments).isSome = isTypeSize arguments := by
  unfold typeSize? isTypeSize
  have hpos : 0 < (arguments.splitOn ',').length :=
    List.length_pos_iff.mpr (List.splitOn_ne_nil _ _)
  rw [← isSome_mapM]
  cases hnumbers : (arguments.splitOn ',').mapM fun argument => integer? (trim argument) with
  | none => simp
  | some numbers =>
    rw [(mapM_eq_some_iff.mp hnumbers).length_eq] at hpos ⊢
    match numbers with
    | [] => simp at hpos
    | [_] | [_, _] => rfl
    | _ :: _ :: _ :: _ => simp

theorem readColumn_of_hasTypeSize {clause : Text} (hclause : tokensOf clause ≠ [])
    (h : hasTypeSize clause = true) : ∃ column, readColumn clause = .ok column := by
  unfold readColumn hasTypeSize at *
  cases htokens : tokensOf clause with
  | nil => exact absurd htokens hclause
  | cons first rest =>
    rw [htokens] at h
    cases harguments : (typePart rest).arguments with
    | none => simp [TypePart.size?, harguments]
    | some group =>
      have hsize : (typeSize? group.inside).isSome = true := by
        rw [isSome_typeSize?]
        simpa [harguments] using h
      obtain ⟨size, hsize⟩ := Option.isSome_iff_exists.mp hsize
      simp [TypePart.size?, harguments, hsize]

theorem readColumn_eq_error {clause : Text} {first group : Token} {rest : List Token}
    (htokens : tokensOf clause = first :: rest)
    (harguments : (typePart rest).arguments = some group)
    (hsize : isTypeSize group.inside = false) :
    readColumn clause = .error (.badTypeSize (bareText first.text) group.inside) := by
  have hnone : typeSize? group.inside = none := by
    rw [← Option.not_isSome_iff_eq_none, isSome_typeSize?, hsize]
    simp
  simp [readColumn, htokens, TypePart.size?, harguments, hnone]

theorem mapM_eq_ok_of_forall {α β : Type} {read : α → Except Fault β} {items : List α}
    (h : ∀ item ∈ items, ∃ value, read item = .ok value) :
    ∃ values, items.mapM read = .ok values := by
  simp only [mapM_eq_ok_iff]
  induction items with
  | nil => exact ⟨[], .nil⟩
  | cons item rest ih =>
    obtain ⟨⟨value, hvalue⟩, hrest⟩ := List.forall_mem_cons.mp h
    obtain ⟨values, hvalues⟩ := ih hrest
    exact ⟨value :: values, .cons hvalue hvalues⟩

/-- The first item that cannot be read decides the fault. -/
theorem mapM_eq_error {α β : Type} {read : α → Except Fault β} {left right : List α} {item : α}
    {fault : Fault} (hleft : ∀ other ∈ left, ∃ value, read other = .ok value)
    (hitem : read item = .error fault) : (left ++ item :: right).mapM read = .error fault := by
  obtain ⟨values, hvalues⟩ := mapM_eq_ok_of_forall hleft
  rw [List.mapM_append, hvalues, List.mapM_cons, hitem]
  rfl

variable {clauses : List Text}

theorem readColumns_eq_ok (htokens : ∀ clause ∈ clauses, tokensOf clause ≠ [])
    (hsizes : ∀ clause ∈ columnClauses clauses, hasTypeSize clause = true)
    (indexes : List Index) : ∃ columns, readColumns clauses indexes = .ok columns := by
  have hread : ∃ found, (columnClauses clauses).mapM readColumn = .ok found := by
    apply mapM_eq_ok_of_forall
    intro clause hclause
    exact readColumn_of_hasTypeSize (htokens clause (List.mem_filter.mp hclause).1)
      (hsizes clause hclause)
  obtain ⟨found, hfound⟩ := hread
  exact ⟨_, readColumns_eq_ok_iff.mpr ⟨found, hfound, rfl⟩⟩

theorem readColumns_eq_error {left right : List Text} {clause : Text} {first group : Token}
    {rest : List Token} (htokens : ∀ clause ∈ clauses, tokensOf clause ≠ [])
    (hsplit : columnClauses clauses = left ++ clause :: right)
    (hleft : ∀ other ∈ left, hasTypeSize other = true)
    (hclause : tokensOf clause = first :: rest)
    (harguments : (typePart rest).arguments = some group)
    (hsize : isTypeSize group.inside = false) (indexes : List Index) :
    readColumns clauses indexes =
      .error (.badTypeSize (bareText first.text) group.inside) := by
  have hread : (columnClauses clauses).mapM readColumn =
      .error (.badTypeSize (bareText first.text) group.inside) := by
    rw [hsplit]
    refine mapM_eq_error ?_ (readColumn_eq_error hclause harguments hsize)
    intro other hother
    have hmem : other ∈ columnClauses clauses := by
      rw [hsplit]
      exact List.mem_append_left _ hother
    exact readColumn_of_hasTypeSize (htokens other (List.mem_filter.mp hmem).1) (hleft other hother)
  rw [readColumns, mapM_map, hread]
  rfl

end SqliteSchema.Proofs.StatementBodies
