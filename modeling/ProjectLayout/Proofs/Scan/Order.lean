import Mathlib.Data.List.Lex
import Mathlib.Data.List.Sort
import ProjectLayout.Scan.Scanner
import ProjectLayout.Proofs.Disk.Tree
import ProjectLayout.Proofs.Glob.Bytes

/-!
# The order of a scan

A scan is in the order of the names that lead to what it lists, which are told by their bytes.  Its
paths are in an order of their own only where all names are texts: what is no text can get the path
of something else.

* `NameLt`, `Before` — the order of names, and of lists of names.
* `Earlier` — the order of paths, segment by segment.
* `earlier_of_before` — where names are texts the two are the same.
* `sortByName_pairwise` — sorting things with different names puts them in the order of the names.
-/

namespace ProjectLayout.Scan

open Disk Glob

/-! ## Names -/

/-- Whether the bytes of a name come before those of another. -/
def NameLt (a b : Name) : Prop := List.Lex (· < ·) a.bytes b.bytes

theorem NameLt.irrefl (name : Name) : ¬ NameLt name name :=
  List.lex_irrefl (fun b => UInt8.lt_irrefl b) _

theorem NameLt.asymm {a b : Name} (h : NameLt a b) : ¬ NameLt b a := List.lt_asymm h

/-- Whether some names come before others, name by name. -/
def Before (names others : List Name) : Prop := List.Lex NameLt names others

theorem Before.irrefl (names : List Name) : ¬ Before names names :=
  List.lex_irrefl NameLt.irrefl _

theorem Before.asymm {names others : List Name} (h : Before names others) :
    ¬ Before others names :=
  have : Std.Asymm NameLt := ⟨fun _ _ => NameLt.asymm⟩
  (List.Lex.asymm NameLt).asymm _ _ h

theorem lex_append_left {α : Type} {r : α → α → Prop} (front : List α) {s t : List α}
    (h : List.Lex r s t) : List.Lex r (front ++ s) (front ++ t) := by
  induction front with
  | nil => exact h
  | cons a front ih => exact .cons ih

/-- Names come before the names below them. -/
theorem before_append (above : List Name) {below : List Name} (h : below ≠ []) :
    Before above (above ++ below) := by
  cases below with
  | nil => exact absurd rfl h
  | cons name more =>
    have hlex : Before (above ++ []) (above ++ name :: more) := lex_append_left above .nil
    rwa [List.append_nil] at hlex

/-- What is under one of two names comes before what is under the other. -/
theorem before_of_nameLt (above : List Name) {a b : Name} (h : NameLt a b)
    (belowA belowB : List Name) : Before (above ++ a :: belowA) (above ++ b :: belowB) :=
  lex_append_left above (.rel h)

/-! ## Places -/

/-- Places in order are told by their members. -/
theorem eq_of_pairwise_before {found others : List Place}
    (hfound : found.Pairwise fun a b => Before a.names b.names)
    (hothers : others.Pairwise fun a b => Before a.names b.names)
    (h : ∀ place, place ∈ found ↔ place ∈ others) : found = others :=
  have : Std.Irrefl fun a b : Place => Before a.names b.names := ⟨fun p => Before.irrefl p.names⟩
  have : Std.Antisymm fun a b : Place => Before a.names b.names :=
    ⟨fun _ _ hab hba => absurd hba hab.asymm⟩
  hfound.eq_of_mem_iff hothers h

/-! ## Paths -/

/-- Whether a path comes before another, segment by segment and in a segment byte by byte. -/
def Earlier (a b : String) : Prop := List.Lex ByteLt (pathSegments a) (pathSegments b)

theorem Earlier.irrefl (path : String) : ¬ Earlier path path := List.lex_irrefl ByteLt.irrefl _

theorem ByteLt.asymm {a b : String} (h : ByteLt a b) : ¬ ByteLt b a := List.lt_asymm h

theorem Earlier.asymm {a b : String} (h : Earlier a b) : ¬ Earlier b a :=
  have : Std.Asymm ByteLt := ⟨fun _ _ => ByteLt.asymm⟩
  (List.Lex.asymm ByteLt).asymm _ _ h

theorem lex_of_before {names others : List String}
    (h : Before (names.map .text) (others.map .text)) : List.Lex ByteLt names others := by
  induction names generalizing others with
  | nil =>
    cases others with
    | nil => exact absurd h (Before.irrefl _)
    | cons name more => exact .nil
  | cons name more ih =>
    cases others with
    | nil => cases h
    | cons other rest =>
      cases h with
      | rel hlt => exact .rel hlt
      | cons hmore => exact .cons (ih hmore)

/-- Names that are texts are in the order of their paths. -/
theorem earlier_of_before {names others : List String} (hn : names ≠ []) (ho : others ≠ [])
    (hnames : ∀ name ∈ names, IsEntryName name) (hothers : ∀ name ∈ others, IsEntryName name)
    (h : Before (names.map .text) (others.map .text)) : Earlier (pathOf names) (pathOf others) := by
  unfold Earlier
  rw [pathSegments_pathOf hn hnames, pathSegments_pathOf ho hothers]
  exact lex_of_before h

/-- Entries in order are told by their members. -/
theorem eq_of_pairwise_earlier {found others : List Entry}
    (hfound : found.Pairwise fun a b => Earlier a.path b.path)
    (hothers : others.Pairwise fun a b => Earlier a.path b.path)
    (h : ∀ e, e ∈ found ↔ e ∈ others) : found = others :=
  have : Std.Irrefl fun a b : Entry => Earlier a.path b.path := ⟨fun e => Earlier.irrefl e.path⟩
  have : Std.Antisymm fun a b : Entry => Earlier a.path b.path :=
    ⟨fun _ _ hab hba => absurd hba hab.asymm⟩
  hfound.eq_of_mem_iff hothers h

/-- Entries in order have different paths. -/
theorem nodup_path_of_pairwise_earlier {entries : List Entry}
    (h : entries.Pairwise fun a b => Earlier a.path b.path) : (entries.map (·.path)).Nodup := by
  rw [List.Nodup, List.pairwise_map]
  refine h.imp fun {a b} hab heq => ?_
  rw [heq] at hab
  exact Earlier.irrefl _ hab

/-! ## Sorting -/

theorem nameLe_total (a b : Name) : (nameLe a b || nameLe b a) = true := by
  simp only [nameLe, Bool.or_eq_true, decide_eq_true_eq]
  exact List.le_total _ _

theorem nameLe_trans (a b c : Name) (hab : nameLe a b = true) (hbc : nameLe b c = true) :
    nameLe a c = true := by
  simp only [nameLe, decide_eq_true_eq] at hab hbc ⊢
  exact List.le_trans hab hbc

theorem nameLt_of_nameLe {a b : Name} (h : nameLe a b = true) (hne : a ≠ b) : NameLt a b := by
  simp only [nameLe, decide_eq_true_eq] at h
  rcases List.le_iff_lt_or_eq.mp h with hlt | heq
  · exact hlt
  · exact absurd (Name.bytes_injective heq) hne

theorem mem_sortByName {α : Type} {named : List (Name × α)} {x : Name × α} :
    x ∈ sortByName named ↔ x ∈ named := List.mem_mergeSort

/-- Things with different names are put in the order of their names. -/
theorem sortByName_pairwise {α : Type} {named : List (Name × α)}
    (h : (named.map Prod.fst).Nodup) :
    (sortByName named).Pairwise fun a b => NameLt a.1 b.1 := by
  have hperm : (sortByName named).Perm named := List.mergeSort_perm named _
  have hsorted : (sortByName named).Pairwise fun a b => nameLe a.1 b.1 = true := by
    apply List.pairwise_mergeSort
    · intro a b c
      exact nameLe_trans a.1 b.1 c.1
    · intro a b
      exact nameLe_total a.1 b.1
  have hdistinct : (sortByName named).Pairwise fun a b => a.1 ≠ b.1 :=
    List.pairwise_map.mp ((hperm.map Prod.fst).nodup_iff.mpr h)
  exact (hsorted.and hdistinct).imp fun hab => nameLt_of_nameLe hab.1 hab.2

theorem entryLe_total (a b : Entry) : (entryLe a b || entryLe b a) = true := by
  simp only [entryLe, Bool.or_eq_true, decide_eq_true_eq]
  exact List.le_total _ _

theorem entryLe_trans (a b c : Entry) (hab : entryLe a b = true) (hbc : entryLe b c = true) :
    entryLe a c = true := by
  simp only [entryLe, decide_eq_true_eq] at hab hbc ⊢
  exact List.le_trans hab hbc

theorem byteLt_of_entryLe {a b : Entry} (h : entryLe a b = true) (hne : a.name ≠ b.name) :
    ByteLt a.name b.name := by
  simp only [entryLe, decide_eq_true_eq] at h
  rcases List.le_iff_lt_or_eq.mp h with hlt | heq
  · exact hlt
  · exact absurd (String.toList_inj.mp (utf8Bytes_injective heq)) hne

end ProjectLayout.Scan
