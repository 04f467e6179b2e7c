import Mathlib.Data.List.Induction
import Mathlib.Data.List.Nodup
import ProjectLayout.Json.Value

/-!
# Members under their keys

An object whose keys are distinct is a finite map: the order of its members, which erasing a key
disturbs, does not show in what stands under a key.

* `get?_eq_some_iff` — what stands under a key is the member of that key.
* `get?_erase`, `get?_overlay` — erasing and overlaying, key by key.
* `mem_of_mem_erase`, `mem_of_mem_overlay` — neither makes up a member.
* `overlay_assoc`, `keys_overlay` — laying several members in turn, with the order of keys.
* `ofSequence_eq_self` — members of distinct keys are read as they stand.
* `keys_ofSequence`, `get?_ofSequence` — the first place and the last value of a repeated key.
-/

namespace ProjectLayout.Json.Members

variable {α : Type} {members more : Members α}

/-! ## Looking up -/

theorem get?_cons (m : String × α) (rest : Members α) (key : String) :
    get? key (m :: rest) = if m.1 = key then some m.2 else get? key rest := rfl

theorem keys_append (members more : Members α) :
    keys (members ++ more) = keys members ++ keys more :=
  List.map_append

theorem mem_keys {key : String} : key ∈ keys members ↔ ∃ value, (key, value) ∈ members := by
  simp [keys]

theorem mem_of_get? {key : String} {value : α} (h : get? key members = some value) :
    (key, value) ∈ members := by
  induction members with
  | nil => simp [get?] at h
  | cons m rest ih =>
    rw [get?_cons] at h
    split at h
    · next hkey =>
      obtain rfl := Option.some.inj h
      exact hkey ▸ List.mem_cons_self
    · exact List.mem_cons_of_mem _ (ih h)

theorem get?_eq_none_iff {key : String} : get? key members = none ↔ key ∉ keys members := by
  induction members with
  | nil => simp [get?, keys]
  | cons m rest ih =>
    rw [get?_cons]
    by_cases hkey : m.1 = key
    · simp [hkey, keys]
    · simp only [hkey, if_false, ih, keys, List.map_cons, List.mem_cons, Ne.symm hkey, false_or]

theorem get?_eq_some_iff (h : (keys members).Nodup) {key : String} {value : α} :
    get? key members = some value ↔ (key, value) ∈ members := by
  refine ⟨mem_of_get?, fun hm => ?_⟩
  cases hget : get? key members with
  | none => exact absurd (mem_keys.mpr ⟨value, hm⟩) (get?_eq_none_iff.mp hget)
  | some found =>
    -- Two members of one key would be two places of that key.
    have hinj := List.inj_on_of_nodup_map h (mem_of_get? hget) hm rfl
    rw [(Prod.mk.inj hinj).2]

/-- The order of members does not matter. -/
theorem get?_eq_of_perm (hp : members.Perm more) (h : (keys members).Nodup) (key : String) :
    get? key members = get? key more := by
  have hmore : (keys more).Nodup := (hp.map Prod.fst).nodup_iff.mp h
  apply Option.ext
  intro value
  rw [get?_eq_some_iff h, get?_eq_some_iff hmore, hp.mem_iff]

theorem get?_append (members more : Members α) (key : String) :
    get? key (members ++ more) = (get? key members).or (get? key more) := by
  induction members with
  | nil => rfl
  | cons m rest ih =>
    rw [List.cons_append, get?_cons, get?_cons, ih]
    split <;> rfl

theorem get?_map {β : Type} (f : α → β) (members : Members α) (key : String) :
    get? key (members.map fun m => (m.1, f m.2)) = (get? key members).map f := by
  induction members with
  | nil => rfl
  | cons m rest ih =>
    rw [List.map_cons, get?_cons, get?_cons, ih]
    split <;> rfl

/-! ## Erasing -/

theorem get?_filter_ne (members : Members α) (key k : String) :
    get? k (members.filter (·.1 ≠ key)) = if key = k then none else get? k members := by
  induction members with
  | nil => simp [get?]
  | cons m rest ih =>
    by_cases hm : m.1 = key
    · rw [List.filter_cons_of_neg (by simpa using hm), ih, get?_cons, hm]
      split <;> rfl
    · rw [List.filter_cons_of_pos (by simpa using hm), get?_cons, get?_cons, ih]
      by_cases hk : key = k
      · simp [hk ▸ hm, hk]
      · simp [hk]

theorem erase_cons_self (key : String) (value : α) (rest : Members α) :
    (erase key ((key, value) :: rest)).Perm rest := by
  rw [erase, if_pos rfl]
  cases hlast : rest.getLast? with
  | none => rw [List.getLast?_eq_none_iff.mp hlast]
  | some last =>
    have hrest : rest.dropLast ++ [last] = rest := List.dropLast_append_getLast? last hlast
    calc
      (last :: rest.dropLast).Perm (rest.dropLast ++ [last]) :=
        (List.perm_append_singleton last rest.dropLast).symm
      _ = rest := hrest

/-- Erasing a key leaves the members of the other keys, in some order. -/
theorem erase_perm (h : (keys members).Nodup) (key : String) :
    (erase key members).Perm (members.filter (·.1 ≠ key)) := by
  induction members with
  | nil => exact .nil
  | cons m rest ih =>
    obtain ⟨k, value⟩ := m
    have hnodup := List.nodup_cons.mp h
    by_cases hk : k = key
    · subst hk
      have hrest : rest.filter (·.1 ≠ k) = rest := by
        apply List.filter_eq_self.mpr
        intro other ho
        have hkeys : other.1 ∈ keys rest := List.mem_map_of_mem ho
        exact decide_eq_true fun he => hnodup.1 (he ▸ hkeys)
      rw [List.filter_cons_of_neg (by simp), hrest]
      exact erase_cons_self k value rest
    · rw [erase, if_neg hk, List.filter_cons_of_pos (by simpa using hk)]
      exact (ih hnodup.2).cons _

theorem nodup_keys_erase (h : (keys members).Nodup) (key : String) :
    (keys (erase key members)).Nodup := by
  have hfilter : (keys (members.filter (·.1 ≠ key))).Nodup := h.sublist (List.filter_sublist.map _)
  exact ((erase_perm h key).map Prod.fst).nodup_iff.mpr hfilter

theorem get?_erase (h : (keys members).Nodup) (key k : String) :
    get? k (erase key members) = if key = k then none else get? k members := by
  rw [get?_eq_of_perm (erase_perm h key) (nodup_keys_erase h key), get?_filter_ne]

theorem mem_of_mem_erase (h : (keys members).Nodup) {key : String} {m : String × α}
    (hm : m ∈ erase key members) : m ∈ members :=
  List.mem_of_mem_filter ((erase_perm h key).mem_iff.mp hm)

/-! ## Overlaying -/

/-- A later member hides an earlier one of its key. -/
theorem get?_overlay_reverse (members more : Members α) (key : String) :
    get? key (overlay members more) = (get? key more.reverse).or (get? key members) := by
  induction more generalizing members with
  | nil => rfl
  | cons m rest ih =>
    have hstep : get? key (overlay members (m :: rest)) =
        (get? key rest.reverse).or (get? key (set m.1 m.2 members)) := ih (set m.1 m.2 members)
    rw [hstep, get?_set, List.reverse_cons, get?_append, Option.or_assoc, get?_cons]
    split <;> rfl

theorem get?_overlay (h : (keys more).Nodup) (members : Members α) (key : String) :
    get? key (overlay members more) = (get? key more).or (get? key members) := by
  rw [get?_overlay_reverse, get?_eq_of_perm more.reverse_perm.symm h]

theorem mem_of_mem_set {key : String} {value : α} {m : String × α}
    (h : m ∈ set key value members) : m = (key, value) ∨ m ∈ members := by
  induction members with
  | nil => exact .inl (List.mem_singleton.mp h)
  | cons other rest ih =>
    obtain ⟨k, v⟩ := other
    unfold set at h
    split at h
    · rcases List.mem_cons.mp h with h | h
      · exact .inl h
      · exact .inr (List.mem_cons_of_mem _ h)
    · rcases List.mem_cons.mp h with h | h
      · exact .inr (h ▸ List.mem_cons_self)
      · exact (ih h).imp_right (List.mem_cons_of_mem _)

theorem mem_of_mem_overlay {m : String × α} (h : m ∈ overlay members more) :
    m ∈ more ∨ m ∈ members := by
  induction more generalizing members with
  | nil => exact .inr h
  | cons other rest ih =>
    rcases ih h with h | h
    · exact .inl (List.mem_cons_of_mem _ h)
    rcases mem_of_mem_set h with h | h
    · exact .inl (h ▸ List.mem_cons_self)
    · exact .inr h

/-! ## Setting a key that is there -/

theorem set_eq_map (h : (keys members).Nodup) {key : String} (hkey : key ∈ keys members)
    (value : α) :
    set key value members = members.map fun m => if m.1 = key then (key, value) else m := by
  induction members with
  | nil => simp [keys] at hkey
  | cons m rest ih =>
    obtain ⟨k, v⟩ := m
    obtain ⟨hfirst, hrest⟩ := List.nodup_cons.mp h
    rw [set, List.map_cons]
    by_cases hk : k = key
    · have hother : (rest.map fun m => if m.1 = key then (key, value) else m) = rest := by
        refine (List.map_congr_left fun m hm => if_neg fun hmk => ?_).trans (List.map_id rest)
        have hin : m.1 ∈ keys rest := List.mem_map_of_mem hm
        exact hfirst (hk.trans hmk.symm ▸ hin)
      rw [if_pos hk, if_pos hk, hother]
    · have hin : key ∈ keys rest := (List.mem_cons.mp hkey).resolve_left (Ne.symm hk)
      rw [if_neg hk, if_neg hk, ih hrest hin]

theorem erase_cons (m : String × α) (rest : Members α) (key : String) :
    erase key (m :: rest) =
      if m.1 = key then rest.getLast?.toList ++ rest.dropLast else m :: erase key rest := by
  rw [erase]
  cases hlast : rest.getLast? with
  | none => simp [List.getLast?_eq_none_iff.mp hlast]
  | some last => rfl

/-- Erasing a key does not look at the values. -/
theorem erase_map {f : String × α → String × α} (hf : ∀ m, (f m).1 = m.1) (key : String)
    (members : Members α) : erase key (members.map f) = (erase key members).map f := by
  induction members with
  | nil => rfl
  | cons m rest ih =>
    rw [List.map_cons, erase_cons, erase_cons, hf, ih, List.getLast?_map, ← List.map_dropLast]
    split
    · rw [List.map_append, Option.toList_map]
    · rw [List.map_cons]

theorem set_eq_self {key : String} {value : α} (h : get? key members = some value) :
    set key value members = members := by
  induction members with
  | nil => cases h
  | cons m rest ih =>
    obtain ⟨k, v⟩ := m
    rw [get?_cons] at h
    rw [set]
    split at h
    · next hk =>
      obtain rfl := Option.some.inj h
      rw [if_pos hk, ← show k = key from hk]
    · next hk => rw [if_neg hk, ih h]

/-- Overlaying what is there changes nothing. -/
theorem overlay_eq_self {more : Members α} (h : ∀ m ∈ more, get? m.1 members = some m.2) :
    overlay members more = members := by
  induction more with
  | nil => rfl
  | cons m rest ih =>
    obtain ⟨hm, hrest⟩ := List.forall_mem_cons.mp h
    have hstep : overlay members (m :: rest) = overlay (set m.1 m.2 members) rest := rfl
    rw [hstep, set_eq_self hm, ih hrest]

theorem overlay_self (h : (keys members).Nodup) : overlay members members = members :=
  overlay_eq_self fun _ hm => (get?_eq_some_iff h).mpr hm

/-- A key that is erased may be set before, with other keys erased in between. -/
theorem erase_erase_set (h : (keys members).Nodup) {key first second : String}
    (hkey : key = first ∨ key = second) (hmem : key ∈ keys members) (value : α) :
    erase second (erase first (set key value members)) = erase second (erase first members) := by
  have hname (m : String × α) : (if m.1 = key then (key, value) else m).1 = m.1 := by
    split
    · next hm => exact hm.symm
    · rfl
  have hgone : get? key (erase second (erase first members)) = none := by
    rw [get?_erase (nodup_keys_erase h first), get?_erase h]
    rcases hkey with rfl | rfl <;> simp
  rw [set_eq_map h hmem, erase_map hname, erase_map hname]
  refine (List.map_congr_left fun m hm => if_neg fun hmk => ?_).trans (List.map_id _)
  exact get?_eq_none_iff.mp hgone (hmk ▸ List.mem_map_of_mem hm)

/-! ## Overlaying twice -/

theorem set_cons (k : String) (v : α) (rest : Members α) (key : String) (value : α) :
    set key value ((k, v) :: rest) =
      if k = key then (key, value) :: rest else (k, v) :: set key value rest := rfl

theorem set_set (key : String) (old new : α) (members : Members α) :
    set key new (set key old members) = set key new members := by
  induction members with
  | nil => rw [set, set_cons, if_pos rfl, set]
  | cons m rest ih =>
    obtain ⟨k, v⟩ := m
    rw [set_cons]
    by_cases hk : k = key
    · rw [if_pos hk, set_cons, set_cons, if_pos rfl, if_pos hk]
    · rw [if_neg hk, set_cons, set_cons, if_neg hk, if_neg hk, ih]

/-- A key that is there keeps its place, so it may be set before or after another one. -/
theorem set_comm {key other : String} (hne : key ≠ other) (h : key ∈ keys members)
    (value new : α) :
    set key value (set other new members) = set other new (set key value members) := by
  induction members with
  | nil => simp [keys] at h
  | cons m rest ih =>
    obtain ⟨k, v⟩ := m
    by_cases hk : k = key
    · subst hk
      rw [set_cons, if_neg hne, set_cons, if_pos rfl, set_cons, if_pos rfl, set_cons, if_neg hne]
    · have hrest : key ∈ keys rest := (List.mem_cons.mp h).resolve_left (Ne.symm hk)
      by_cases hother : k = other
      · subst hother
        rw [set_cons, if_pos rfl, set_cons, if_neg hk, set_cons, if_neg hk, set_cons, if_pos rfl]
      · rw [set_cons, if_neg hother, set_cons, if_neg hk, set_cons, if_neg hk, set_cons,
          if_neg hother, ih hrest]

theorem overlay_cons (members : Members α) (m : String × α) (rest : Members α) :
    overlay members (m :: rest) = overlay (set m.1 m.2 members) rest := rfl

theorem overlay_set_of_mem {key : String} (hmore : key ∉ keys more) (h : key ∈ keys members)
    (value : α) : overlay (set key value members) more = set key value (overlay members more) := by
  induction more generalizing members with
  | nil => rfl
  | cons m rest ih =>
    obtain ⟨hm, hrest⟩ : key ≠ m.1 ∧ key ∉ keys rest := by
      simpa only [keys, List.map_cons, List.mem_cons, not_or] using hmore
    have hset : key ∈ keys (set m.1 m.2 members) := by
      rw [keys_set]
      split
      · exact h
      · exact List.mem_append_left _ h
    rw [overlay_cons, overlay_cons, ← set_comm hm h, ih hrest hset]

/-- Setting a key of what is laid on top sets it in the whole. -/
theorem overlay_set (h : (keys more).Nodup) (members : Members α) (key : String) (value : α) :
    overlay members (set key value more) = set key value (overlay members more) := by
  induction more generalizing members with
  | nil => rfl
  | cons m rest ih =>
    obtain ⟨k, v⟩ := m
    obtain ⟨hk, hrest⟩ := List.nodup_cons.mp h
    rw [set_cons]
    by_cases hkey : k = key
    · subst hkey
      have hin : k ∈ keys (set k v members) := by
        rw [keys_set]
        split
        · assumption
        · exact List.mem_append_right _ (List.mem_singleton_self k)
      rw [if_pos rfl, overlay_cons, overlay_cons, ← overlay_set_of_mem hk hin, set_set]
    · rw [if_neg hkey, overlay_cons, overlay_cons, ih hrest]

theorem overlay_assoc (h : (keys more).Nodup) (members last : Members α) :
    overlay (overlay members more) last = overlay members (overlay more last) := by
  induction last generalizing more with
  | nil => rfl
  | cons m rest ih =>
    rw [overlay_cons, overlay_cons, ← overlay_set h, ih (nodup_keys_set h m.1 m.2)]

/-- The keys that are there keep their places, and new ones follow in order. -/
theorem keys_overlay (h : (keys more).Nodup) (members : Members α) :
    keys (overlay members more) = keys members ++ (keys more).filter (· ∉ keys members) := by
  induction more generalizing members with
  | nil => exact (List.append_nil _).symm
  | cons m rest ih =>
    obtain ⟨hm, hrest⟩ := List.nodup_cons.mp h
    have hkeys : keys (m :: rest) = m.1 :: keys rest := rfl
    rw [overlay_cons, ih hrest, keys_set, hkeys]
    by_cases hin : m.1 ∈ keys members
    · rw [if_pos hin, List.filter_cons_of_neg (by simpa using hin)]
    · have hother : (keys rest).filter (· ∉ keys members ++ [m.1]) =
          (keys rest).filter (· ∉ keys members) := by
        refine List.filter_congr fun key hkey => decide_eq_decide.mpr ?_
        have hne : key ≠ m.1 := fun heq => hm (heq ▸ hkey)
        simp [hne]
      rw [if_neg hin, hother, List.filter_cons_of_pos (by simpa using hin), List.append_assoc]
      rfl

/-! ## Members in sequence -/

theorem set_of_not_mem {key : String} (h : key ∉ keys members) (value : α) :
    set key value members = members ++ [(key, value)] := by
  induction members with
  | nil => rfl
  | cons m rest ih =>
    obtain ⟨k, v⟩ := m
    have hk : ¬ k = key ∧ key ∉ keys rest := by
      simp only [keys, List.map_cons, List.mem_cons, not_or] at h
      exact ⟨Ne.symm h.1, h.2⟩
    rw [set, if_neg hk.1, ih hk.2]
    rfl

/-- Members of new keys are put at the end. -/
theorem overlay_eq_append (h : (keys (members ++ more)).Nodup) :
    overlay members more = members ++ more := by
  induction more generalizing members with
  | nil => exact (List.append_nil members).symm
  | cons m rest ih =>
    have hsplit : members ++ m :: rest = members ++ [m] ++ rest := by simp
    have hkeys : (keys members ++ m.1 :: keys rest).Nodup := by simpa [keys] using h
    have hnew : m.1 ∉ keys members := fun hm =>
      (List.nodup_append.mp hkeys).2.2 _ hm _ List.mem_cons_self rfl
    have hstep : overlay members (m :: rest) = overlay (set m.1 m.2 members) rest := rfl
    rw [hsplit] at h
    rw [hstep, set_of_not_mem hnew, ih h, hsplit]

theorem ofSequence_eq_self (h : (keys members).Nodup) : ofSequence members = members :=
  overlay_eq_append h

theorem overlay_concat (members more : Members α) (m : String × α) :
    overlay members (more ++ [m]) = set m.1 m.2 (overlay members more) := by
  simp [overlay]

theorem eraseDups_concat (keys : List String) (key : String) :
    (keys ++ [key]).eraseDups = if key ∈ keys then keys.eraseDups else keys.eraseDups ++ [key] := by
  rw [List.eraseDups_append, List.removeAll]
  by_cases hkey : key ∈ keys
  · simp [hkey]
  · simp [hkey, List.eraseDups_cons]

/-- A repeated key keeps its first place. -/
theorem keys_ofSequence (pairs : Members α) : keys (ofSequence pairs) = (keys pairs).eraseDups := by
  induction pairs using List.reverseRecOn with
  | nil => rfl
  | append_singleton pairs m ih =>
    have hstep : ofSequence (pairs ++ [m]) = set m.1 m.2 (ofSequence pairs) :=
      overlay_concat [] pairs m
    have hlast : keys [m] = [m.1] := rfl
    rw [hstep, keys_set, ih, keys_append, hlast, eraseDups_concat]
    exact if_congr List.mem_eraseDups rfl rfl

/-- A repeated key keeps its last value. -/
theorem get?_ofSequence (pairs : Members α) (key : String) :
    get? key (ofSequence pairs) = get? key pairs.reverse :=
  (get?_overlay_reverse [] pairs key).trans Option.or_none

end ProjectLayout.Json.Members
