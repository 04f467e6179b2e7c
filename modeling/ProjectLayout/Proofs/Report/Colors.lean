import Mathlib.Data.List.Basic
import ProjectLayout.Report.Human

/-!
# Reports with and without colors

The writers (`HumanOutput`) put a text together once with colors and once without.  The first has
nothing that the second has not but escape sequences, and no text that is printed loses anything to
them.

* `IsSequence`, `unstyled` — a sequence that sets a style, a text without all of these.
* `paint_eq` — a styled text is the text between two sequences.
* `Erases` — that a text without its sequences is another text, whatever stands behind it.
* `erases_headerText`, `erases_findingText`, … — the two branches of each writer.
* `unstyled_colored_output` — the two texts of everything that is printed for people.

A text that holds an escape character itself is left out throughout: `ESC [ 1 m` in the name of a
file is printed as it is, with and without colors.
-/

namespace ProjectLayout.Report

/-! ## Escape sequences -/

/-- Whether a text is a sequence that sets a style: `ESC [`, digits and semicolons, `m`. -/
def IsSequence (s : List Char) : Prop :=
  ∃ numbers, (∀ c ∈ numbers, (c.isDigit || c == ';') = true) ∧
    s = '\x1b' :: '[' :: (numbers ++ ['m'])

/-- What stands behind the sequence that a text begins with. -/
def behindSequence? : List Char → Option (List Char)
  | '\x1b' :: '[' :: rest =>
    match rest.dropWhile fun c => c.isDigit || c == ';' with
    | 'm' :: back => some back
    | _ => none
  | _ => none

theorem behindSequence?_eq_some_iff {s back : List Char} :
    behindSequence? s = some back ↔ ∃ front, IsSequence front ∧ s = front ++ back := by
  constructor
  · intro h
    unfold behindSequence? at h
    split at h
    · next rest =>
      split at h
      · next more hdrop =>
        obtain rfl := Option.some.inj h
        refine ⟨_, ⟨rest.takeWhile fun c => c.isDigit || c == ';', ?_, rfl⟩, ?_⟩
        · exact fun c hc => List.all_eq_true.mp List.all_takeWhile c hc
        · have hsplit := List.takeWhile_append_dropWhile (p := fun c => c.isDigit || c == ';')
            (l := rest)
          rw [hdrop] at hsplit
          simp [hsplit]
      · exact absurd h (by simp)
    · exact absurd h (by simp)
  · rintro ⟨front, ⟨numbers, hnumbers, rfl⟩, rfl⟩
    have hdrop : (numbers ++ 'm' :: back).dropWhile (fun c => c.isDigit || c == ';') =
        'm' :: back := by
      rw [List.dropWhile_append_of_pos hnumbers]
      rfl
    have hcons : '\x1b' :: '[' :: (numbers ++ ['m']) ++ back =
        '\x1b' :: '[' :: (numbers ++ 'm' :: back) := by simp
    rw [hcons, behindSequence?]
    simp only [hdrop]

theorem length_lt_of_behindSequence? {s back : List Char} (h : behindSequence? s = some back) :
    back.length < s.length := by
  obtain ⟨front, ⟨numbers, -, rfl⟩, rfl⟩ := behindSequence?_eq_some_iff.mp h
  simp only [List.length_append, List.length_cons]
  omega

/-- The text without its sequences. -/
def unstyled : List Char → List Char
  | [] => []
  | c :: rest =>
    match _h : behindSequence? (c :: rest) with
    | some back => unstyled back
    | none => c :: unstyled rest
termination_by s => s.length
decreasing_by
  · exact length_lt_of_behindSequence? _h
  · exact Nat.lt_succ_self _

theorem unstyled_append_of_isSequence {front : List Char} (h : IsSequence front)
    (back : List Char) : unstyled (front ++ back) = unstyled back := by
  have hback : behindSequence? (front ++ back) = some back :=
    behindSequence?_eq_some_iff.mpr ⟨front, h, rfl⟩
  obtain ⟨numbers, -, rfl⟩ := h
  rw [List.cons_append] at hback ⊢
  rw [unstyled]
  split
  · next found hfound => rw [Option.some.inj (hfound.symm.trans hback)]
  · next hnone => exact absurd (hnone.symm.trans hback) (by simp)

/-- A character that is no escape character stays. -/
theorem unstyled_cons {c : Char} (h : c ≠ '\x1b') (rest : List Char) :
    unstyled (c :: rest) = c :: unstyled rest := by
  rw [unstyled]
  split
  · next back hback =>
    obtain ⟨front, ⟨numbers, -, rfl⟩, hcons⟩ := behindSequence?_eq_some_iff.mp hback
    exact absurd (List.cons.inj hcons).1 h
  · rfl

theorem unstyled_append_of_not_mem {front : List Char} (h : '\x1b' ∉ front) (back : List Char) :
    unstyled (front ++ back) = front ++ unstyled back := by
  induction front with
  | nil => rfl
  | cons c front ih =>
    simp only [List.mem_cons, not_or] at h
    rw [List.cons_append, unstyled_cons (Ne.symm h.1), ih h.2, List.cons_append]

/-! ## Styled texts -/

theorem isSequence_on (style : Style) : IsSequence style.on := by
  refine ⟨style.code.toList, ?_, by simp [Style.on]⟩
  cases style <;> exact List.all_eq_true.mp rfl

theorem isSequence_reset : IsSequence reset := ⟨['0'], List.all_eq_true.mp rfl, rfl⟩

theorem restyle_of_not_mem (again : List Char) {text : List Char} (h : '\x1b' ∉ text) :
    restyle again text = text := by
  induction text with
  | nil => rfl
  | cons c text ih =>
    simp only [List.mem_cons, not_or] at h
    rw [restyle, ih h.2]
    rintro rest rfl
    exact absurd rfl h.1

/-- Nothing is switched off inside the text, so the style is written once. -/
theorem paint_eq (style : Style) {text : List Char} (h : '\x1b' ∉ text) :
    paint style text = style.on ++ text ++ reset := by
  rw [paint, restyle_of_not_mem _ h]

/-! ## Texts with and without sequences -/

/-- Whether a text has no escape character. -/
def IsPlain (s : String) : Prop := '\x1b' ∉ s.toList

instance (s : String) : Decidable (IsPlain s) := inferInstanceAs (Decidable (¬_))

/-- Whether the text `colored` without its sequences is the text `plain`.  What stands behind it is
left alone, so no sequence is left open. -/
def Erases (colored plain : String) : Prop :=
  ∀ back, unstyled (colored.toList ++ back) = plain.toList ++ unstyled back

/-- Whether a writer writes the same in colors, once the sequences are taken out, and without. -/
def SaySame (write : Bool → String) : Prop :=
  unstyled (write true).toList = (write false).toList

theorem saySame_of_erases (write : Bool → String) (h : Erases (write true) (write false)) :
    SaySame write := by
  have hend := h []
  rwa [List.append_nil, unstyled, List.append_nil] at hend

theorem erases_of_isPlain {s : String} (h : IsPlain s) : Erases s s :=
  unstyled_append_of_not_mem h

theorem erases_empty : Erases "" "" := erases_of_isPlain (by decide)

theorem Erases.append {colored plain colored' plain' : String} (h : Erases colored plain)
    (h' : Erases colored' plain') : Erases (colored ++ colored') (plain ++ plain') := by
  intro back
  rw [String.toList_append, String.toList_append, List.append_assoc, h, h', List.append_assoc]

theorem erases_join {α : Type} {colored plain : α → String} {l : List α}
    (h : ∀ a ∈ l, Erases (colored a) (plain a)) :
    Erases (String.join (l.map colored)) (String.join (l.map plain)) := by
  induction l with
  | nil => exact erases_empty
  | cons a l ih =>
    rw [List.map_cons, List.map_cons, String.join_cons, String.join_cons]
    exact (h a List.mem_cons_self).append (ih fun b hb => h b (List.mem_cons_of_mem a hb))

theorem erases_elim {α : Type} {colored plain : α → String} {value : Option α}
    (h : ∀ a ∈ value, Erases (colored a) (plain a)) :
    Erases (value.elim "" colored) (value.elim "" plain) := by
  cases value with
  | none => exact erases_empty
  | some a => exact h a rfl

theorem erases_apply (style : Style) {text : String} (h : IsPlain text) :
    Erases (style.apply text) text := by
  intro back
  rw [Style.apply, String.toList_ofList, paint_eq style h, List.append_assoc, List.append_assoc,
    unstyled_append_of_isSequence (isSequence_on style), unstyled_append_of_not_mem h,
    unstyled_append_of_isSequence isSequence_reset]

theorem erases_newline : Erases "\n" "\n" := erases_of_isPlain (by decide)

/-- A styled line and the same line as it is. -/
theorem erases_line (style : Style) {text : String} (h : IsPlain text) :
    Erases (style.apply text ++ "\n") (text ++ "\n") :=
  (erases_apply style h).append erases_newline

/-! ## Plain texts -/

@[simp]
theorem isPlain_append {s t : String} : IsPlain (s ++ t) ↔ IsPlain s ∧ IsPlain t := by
  simp [IsPlain, String.toList_append, List.mem_append, not_or]

@[simp]
theorem isPlain_toString {s : String} : IsPlain (toString s) ↔ IsPlain s := Iff.rfl

@[simp]
theorem isPlain_repr (n : Nat) : IsPlain n.repr := by
  intro hmem
  have hdigit : '\x1b'.isDigit = true :=
    Nat.isDigit_of_mem_toDigits (b := 10) (by decide) (by decide) (by simpa [Nat.repr] using hmem)
  exact absurd hdigit (by decide)

@[simp]
theorem isPlain_pluralEnding (count : Nat) : IsPlain (pluralEnding count) := by
  unfold pluralEnding
  split <;> decide

/-- The texts of a finding. -/
def textsOf (f : Finding) : List String :=
  f.message ::
    (f.file.toList ++ f.directory.toList ++ f.expected.toList ++ f.actual.toList ++
      f.suggestion.toList)

/-! ## The two branches of the writers -/

theorem erases_ruleText : Erases (ruleText true) (ruleText false) :=
  erases_line .dimmed (by simp [IsPlain])

theorem erases_detailText {label value : String} (hlabel : IsPlain label) (hvalue : IsPlain value) :
    Erases (detailText true label value) (detailText false label value) :=
  erases_line .dimmed (by simp +decide [hlabel, hvalue])

theorem erases_countText {line : String} (h : IsPlain line) :
    Erases (countText true line) (countText false line) := erases_line .dimmed h

theorem erases_headerText (r : ValidationResult) :
    Erases (headerText true r) (headerText false r) := by
  have htitle : Erases ("\n" ++ Style.bold.apply "Project Structure Validation Results" ++ "\n")
      ("\n" ++ "Project Structure Validation Results" ++ "\n") :=
    (erases_newline.append (erases_apply .bold (by decide))).append erases_newline
  exact (((htitle.append erases_ruleText).append
    (erases_countText (by simp +decide))).append (erases_countText (by simp +decide))).append
      erases_newline

theorem erases_sectionText (severity : Severity) (count : Nat) :
    Erases (sectionText true severity count) (sectionText false severity count) := by
  cases severity with
  | error => exact (erases_line .boldRed (by simp +decide)).append erases_newline
  | warning => exact (erases_line .boldYellow (by simp +decide)).append erases_newline

/-- The style of a title depends on the severity. -/
theorem erases_styledTitle (severity : Severity) {title : String} (h : IsPlain title) :
    Erases
      ((match severity with
        | .error => Style.red.apply title
        | .warning => Style.yellow.apply title) ++ "\n")
      (title ++ "\n") := by
  cases severity with
  | error => exact erases_line .red h
  | warning => exact erases_line .yellow h

theorem erases_findingText (index : Nat) {f : Finding} (h : ∀ text ∈ textsOf f, IsPlain text) :
    Erases (findingText true index f) (findingText false index f) := by
  simp only [textsOf, List.forall_mem_cons, List.forall_mem_append, Option.mem_toList] at h
  obtain ⟨hmessage, ⟨⟨⟨hfile, hdirectory⟩, hexpected⟩, hactual⟩, hsuggestion⟩ := h
  have htitle : IsPlain s!"{index}. {f.message}" := by simp +decide [hmessage]
  refine ((((((erases_styledTitle f.severity htitle).append ?_).append ?_).append ?_).append ?_).append
    ?_).append erases_newline
  · exact erases_elim fun file hf => erases_detailText (by decide) (hfile file hf)
  · exact erases_elim fun dir hd => erases_detailText (by decide) (hdirectory dir hd)
  · exact erases_elim fun actual ha => erases_detailText (by decide) (hactual actual ha)
  · exact erases_elim fun expected he => erases_detailText (by decide) (hexpected expected he)
  · exact erases_elim fun suggestion hs =>
      erases_line .cyan (by simp +decide [hsuggestion suggestion hs])

theorem erases_findingsText (severity : Severity) {findings : List Finding}
    (h : ∀ f ∈ findings, ∀ text ∈ textsOf f, IsPlain text) :
    Erases (findingsText true severity findings) (findingsText false severity findings) := by
  unfold findingsText
  split
  · exact erases_empty
  · refine (erases_sectionText severity _).append (erases_join fun (f, index) hf => ?_)
    exact erases_findingText index (h f (List.fst_mem_of_mem_zipIdx hf))

theorem erases_summaryText (r : ValidationResult) :
    Erases (summaryText true r) (summaryText false r) := by
  unfold summaryText
  refine Erases.append ?_ erases_newline
  split
  · exact erases_line .boldRed (by simp +decide)
  · exact erases_line .boldYellow (by simp +decide)

theorem erases_reportText {r : ValidationResult}
    (h : ∀ f ∈ r.errors ++ r.warnings, ∀ text ∈ textsOf f, IsPlain text) :
    Erases (reportText true r) (reportText false r) := by
  obtain ⟨herrors, hwarnings⟩ := List.forall_mem_append.mp h
  unfold reportText
  refine (erases_headerText r).append ?_
  split
  · exact (erases_line .green (by decide)).append erases_newline
  · exact (((erases_findingsText .error herrors).append
      (erases_findingsText .warning hwarnings)).append erases_ruleText).append
        (erases_summaryText r)

theorem erases_problemText {problem : String} (h : IsPlain problem) :
    Erases (problemText true problem) (problemText false problem) :=
  erases_line .red (by simp +decide [h])

theorem erases_problemsText {problems : List String} (h : ∀ text ∈ problems, IsPlain text) :
    Erases (problemsText true problems) (problemsText false problems) :=
  ((erases_line .boldRed (by decide)).append
    (erases_join fun problem hp => erases_problemText (h problem hp))).append erases_newline

/-- Of the presets only the heading is styled. -/
theorem erases_presetsText {presets : List Preset}
    (h : ∀ preset ∈ presets, IsPlain preset.name ∧ IsPlain preset.description) :
    Erases (presetsText true presets) (presetsText false presets) := by
  refine ((erases_line .bold (by decide)).append (erases_join fun preset hpreset => ?_)).append
    erases_newline
  obtain ⟨hname, hdescription⟩ := h preset hpreset
  exact erases_of_isPlain (by simp +decide [hname, hdescription])

/-- One branch has the blank in a text of its own, the other has it in front of the message. -/
theorem erases_errorText {message : String} (h : IsPlain message) :
    Erases (errorText true message) (errorText false message) := by
  have hblank : "Error: " = "Error:" ++ " " := by decide
  have hplain : errorText false message = "Error:" ++ " " ++ message ++ "\n" := by
    rw [← hblank]
    rfl
  rw [hplain]
  exact (((erases_apply .boldRed (by decide)).append (erases_of_isPlain (by decide))).append
    (erases_of_isPlain h)).append erases_newline

/-- Whatever is printed for people says the same in colors and without, as long as no text in it
holds an escape character. -/
theorem unstyled_colored_output :
    (∀ r : ValidationResult, (∀ f ∈ r.errors ++ r.warnings, ∀ text ∈ textsOf f, IsPlain text) →
        SaySame (reportText · r)) ∧
      (∀ problems : List String, (∀ text ∈ problems, IsPlain text) →
        SaySame (problemsText · problems)) ∧
      (∀ presets : List Preset,
        (∀ preset ∈ presets, IsPlain preset.name ∧ IsPlain preset.description) →
        SaySame (presetsText · presets)) ∧
      (∀ (severity : Severity) (count : Nat), SaySame (sectionText · severity count)) ∧
      (∀ (index : Nat) (f : Finding), (∀ text ∈ textsOf f, IsPlain text) →
        SaySame (findingText · index f)) ∧
      ∀ message : String, IsPlain message → SaySame (errorText · message) := by
  refine ⟨?_, ?_, ?_, ?_, ?_, ?_⟩
  · exact fun r h => saySame_of_erases (reportText · r) (erases_reportText h)
  · exact fun problems h => saySame_of_erases (problemsText · problems) (erases_problemsText h)
  · exact fun presets h => saySame_of_erases (presetsText · presets) (erases_presetsText h)
  · exact fun severity count => saySame_of_erases (sectionText · severity count)
      (erases_sectionText severity count)
  · exact fun index f h => saySame_of_erases (findingText · index f) (erases_findingText index h)
  · exact fun message h => saySame_of_erases (errorText · message) (erases_errorText h)

/-- What looks like a sequence in the name of a file is none. -/
def bracketedName : Finding :=
  .fileNaming .warning "File name doesn't follow camelCase convention" "src/hooks/[1m.ts" "[1m.ts"
    "[1m.ts"

theorem unstyled_colored_bracketedName :
    SaySame (reportText · (.ofFindings [bracketedName] 1 2)) ∧
      SaySame (problemsText · ["Invalid file naming pattern: [0m"]) ∧
      SaySame (presetsText · Preset.all) ∧ SaySame (sectionText · .error 2) ∧
      SaySame (findingText · 1 bracketedName) ∧ SaySame (errorText · "[31m: not a directory") := by
  obtain ⟨hreport, hproblems, hpresets, hsection, hfinding, herror⟩ := unstyled_colored_output
  refine ⟨hreport _ ?_, hproblems _ (by decide), hpresets _ (by decide), hsection .error 2,
    hfinding 1 _ (by decide), herror _ (by decide)⟩
  decide

end ProjectLayout.Report
