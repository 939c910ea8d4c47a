import SqliteSchema.CommandLine
import SqliteSchema.Proofs.EscapedTexts

/-!
A fault can be told from the way it is shown: the name of its case ends at the first character
that is no letter, and a text in it ends at its closing quote. So what a run of the program leaves
behind tells whether it failed, what it printed if it did not, and else the fault with all its data.
-/
namespace SqliteSchema.Proofs.ShownFaults

open PlainText Faults DiagnosticNotation RunFaults CommandLine EscapedTexts

variable {name other : String} {left right shown text : Text}

/-- From 160 on characters stand for themselves, so finitely many escapes are left to compare. -/
theorem isEscape_escapeChar : IsEscape escapeChar := by
  refine isEscape_of_isCheckedEscape ?_ (by decide +kernel)
  intro c hc
  have hcontrol : isControl c = false := by
    have hlow : ¬c.toNat < 0x20 := by omega
    have hhigh : ¬c.toNat < 0xA0 := by omega
    simp [isControl, hlow, hhigh]
  unfold escapeChar
  split
  case h_7 => simp [hcontrol]
  all_goals exact absurd hc (by decide)

/-- A text ends at its closing quote, whatever follows. -/
theorem shownText_append_inj {afterLeft afterRight : Text}
    (h : shownText left ++ afterLeft = shownText right ++ afterRight) :
    left = right ∧ afterLeft = afterRight := by
  simp only [shownText, List.cons_append, List.append_assoc, List.cons.injEq, true_and,
    List.nil_append] at h
  exact isEscape_escapeChar.eq_of_escaped h

theorem shownText_injective : Function.Injective shownText := by
  intro left right h
  exact (shownText_append_inj (congrArg (· ++ []) h)).1

def caseName (shown : Text) : Text := shown.takeWhile Char.isAlpha

/-- The name of a case ends at the parenthesis or the space behind it. -/
theorem caseName_append (hname : name.toList.all Char.isAlpha = true) {c : Char}
    (hc : c.isAlpha = false) (rest : Text) : caseName (name.toList ++ c :: rest) = name.toList := by
  rw [caseName, List.takeWhile_append_of_pos (List.all_eq_true.mp hname)]
  simp [hc]

theorem caseName_shownCase (hname : name.toList.all Char.isAlpha = true) (shown : Text) :
    caseName (shownCase name shown) = name.toList := by
  rw [shownCase, List.append_assoc]
  exact caseName_append hname (by decide) _

theorem caseName_shownFields (hname : name.toList.all Char.isAlpha = true)
    (fields : List (String × Text)) : caseName (shownFields name fields) = name.toList := by
  rw [shownFields, List.append_assoc, List.append_assoc]
  exact caseName_append hname (by decide) _

theorem shownCase_inj (h : shownCase name left = shownCase name right) : left = right := by
  simpa [shownCase] using h

theorem shownCase_shownText_inj
    (h : shownCase name (shownText left) = shownCase name (shownText right)) : left = right :=
  shownText_injective (shownCase_inj h)

theorem message_injective : Function.Injective SyntaxFault.message := by
  intro left right h
  cases left with
  | namelessTable statement => cases right with
    | namelessTable other =>
      have hstatement : "missing table name: '".toList ++ statement ++ ['\x27'] =
          "missing table name: '".toList ++ other ++ ['\x27'] := h
      rw [List.append_cancel_left (List.append_cancel_right hstatement)]
    | emptyColumn clause =>
      have hfirst : some 'm' = some 'e' := congrArg List.head? h
      simp at hfirst
  | emptyColumn clause => cases right with
    | namelessTable other =>
      have hfirst : some 'e' = some 'm' := congrArg List.head? h
      simp at hfirst
    | emptyColumn other =>
      have hclause : "empty column definition: '".toList ++ clause ++ ['\x27'] =
          "empty column definition: '".toList ++ other ++ ['\x27'] := h
      rw [List.append_cancel_left (List.append_cancel_right hclause)]

theorem isAlpha_faultName (fault : Fault) : (faultName fault).toList.all Char.isAlpha = true := by
  cases fault <;> (simp only [faultName]; decide)

theorem caseName_shownFault (fault : Fault) :
    caseName (shownFault fault) = (faultName fault).toList := by
  have hname := isAlpha_faultName fault
  cases fault with
  | noBody | unbalanced | unknownStatement | badSyntax => exact caseName_shownCase hname _
  | badTypeSize => exact caseName_shownFields hname _
  | noTable | manyTables => rfl

/-- A fault is told by the name of its case and by the texts that it holds. -/
theorem shownFault_injective : Function.Injective shownFault := by
  intro left right h
  have hletters := congrArg caseName h
  rw [caseName_shownFault, caseName_shownFault] at hletters
  have hname : faultName left = faultName right := String.toList_inj.mp hletters
  cases left with
  | noBody statement => cases right with
    | noBody other => rw [shownCase_shownText_inj h]
    | _ => simp [faultName] at hname
  | unbalanced text => cases right with
    | unbalanced other => rw [shownCase_shownText_inj h]
    | _ => simp [faultName] at hname
  | unknownStatement statement => cases right with
    | unknownStatement other => rw [shownCase_shownText_inj h]
    | _ => simp [faultName] at hname
  | badSyntax cause => cases right with
    | badSyntax other =>
      rw [message_injective (shownCase_shownText_inj h)]
    | _ => simp [faultName] at hname
  | badTypeSize column arguments => cases right with
    | badTypeSize otherColumn otherArguments =>
      simp only [shownFault, faultName, shownFields, List.map_cons, List.map_nil,
        List.intercalate_cons_cons, List.intercalate_singleton, List.append_assoc,
        List.append_cancel_left_eq] at h
      obtain ⟨rfl, hrest⟩ := shownText_append_inj h
      simp only [List.append_cancel_left_eq] at hrest
      rw [(shownText_append_inj hrest).1]
    | _ => simp [faultName] at hname
  | noTable => cases right with
    | noTable => rfl
    | _ => simp [faultName] at hname
  | manyTables => cases right with
    | manyTables => rfl
    | _ => simp [faultName] at hname

def systemFaults : List SystemFault :=
  [.missingFile, .permissionDenied, .notDirectory, .isDirectory, .longName]

theorem shownInputFault_system {cause other : SystemFault}
    (h : shownInputFault (.system cause) = shownInputFault (.system other)) : cause = other := by
  have hmem : ∀ fault : SystemFault, fault ∈ systemFaults := by
    intro fault
    cases fault <;> decide
  have hall : (systemFaults.all fun left => systemFaults.all fun right =>
      shownInputFault (.system left) != shownInputFault (.system right) ||
        left == right) = true := by
    decide +kernel
  have hpair := List.all_eq_true.mp (List.all_eq_true.mp hall cause (hmem cause)) other (hmem other)
  simpa [h] using hpair

theorem shownInputFault_injective : Function.Injective shownInputFault := by
  intro left right h
  have hsystem : ∀ cause, caseName (shownInputFault (.system cause)) = "Os".toList :=
    fun _ => caseName_shownFields (by decide) _
  have hencoding : caseName (shownInputFault .invalidEncoding) = "Error".toList :=
    caseName_shownFields (by decide) _
  have hreason : ∀ reason, caseName (shownInputFault (.unreadable reason)) = "Other".toList :=
    fun _ => caseName_shownCase (by decide) _
  have hletters := congrArg caseName h
  cases left with
  | system cause => cases right with
    | system other => rw [shownInputFault_system h]
    | _ => simp [hsystem, hencoding, hreason] at hletters
  | invalidEncoding => cases right with
    | invalidEncoding => rfl
    | _ => simp [hsystem, hencoding, hreason] at hletters
  | unreadable reason => cases right with
    | unreadable other => rw [shownCase_shownText_inj h]
    | _ => simp [hsystem, hencoding, hreason] at hletters

/-- The complaint of a run tells at which stage it failed, and on what. -/
theorem shownRunFault_injective : Function.Injective shownRunFault := by
  intro left right h
  have hinput : ∀ cause, caseName (shownRunFault (.input cause)) = "InputRead".toList :=
    fun _ => caseName_shownCase (by decide) _
  have hdefinition : ∀ cause, caseName (shownRunFault (.definition cause)) = "Ddl".toList :=
    fun _ => caseName_shownCase (by decide) _
  have hformat : ∀ format,
      caseName (shownRunFault (.unknownFormat format)) = "InvalidOutputFormat".toList :=
    fun _ => caseName_shownCase (by decide) _
  have hconstraint : ∀ name,
      caseName (shownRunFault (.noSuchConstraint name)) = "ConstraintNotFound".toList :=
    fun _ => caseName_shownCase (by decide) _
  have hletters := congrArg caseName h
  cases left with
  | input cause => cases right with
    | input other => rw [shownInputFault_injective (shownCase_inj h)]
    | _ => simp [hinput, hdefinition, hformat, hconstraint] at hletters
  | definition cause => cases right with
    | definition other => rw [shownFault_injective (shownCase_inj h)]
    | _ => simp [hinput, hdefinition, hformat, hconstraint] at hletters
  | unknownFormat format => cases right with
    | unknownFormat other => rw [shownCase_shownText_inj h]
    | _ => simp [hinput, hdefinition, hformat, hconstraint] at hletters
  | noSuchConstraint name => cases right with
    | noSuchConstraint other => rw [shownCase_shownText_inj h]
    | _ => simp [hinput, hdefinition, hformat, hconstraint] at hletters

/-- Two runs that leave the same behind gave the same text or failed for the same reason. -/
theorem ofResult_injective : Function.Injective Outcome.ofResult := by
  intro left right h
  cases left with
  | ok text => cases right with
    | ok other =>
      have houtput : text ++ ['\n'] = other ++ ['\n'] := congrArg Outcome.output h
      rw [List.append_cancel_right houtput]
    | error fault => simp [Outcome.ofResult] at h
  | error fault => cases right with
    | ok text => simp [Outcome.ofResult] at h
    | error other =>
      have hcomplaint : "Error: ".toList ++ shownRunFault fault ++ ['\n'] =
          "Error: ".toList ++ shownRunFault other ++ ['\n'] := congrArg Outcome.complaint h
      rw [shownRunFault_injective
        (List.append_cancel_left (List.append_cancel_right hcomplaint))]

end SqliteSchema.Proofs.ShownFaults
