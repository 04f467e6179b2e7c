import ProjectLayout.Proofs.Glob.Ending

/-!
# Patterns segment by segment

A pattern of `*`, `**` and plain characters matches a path if the segments of the path can be cut
along the segments of the pattern: `*` stays in its segment, and a segment `**` stands for segments
of the path.

* `IsSegment`, `IsPathSegment` — the segments of such patterns and of paths.
* `Fits`, `Cuts` — whether a segment matches a name, and segments a list of names.
* `spans_segmentTokens_iff` — the tokens of a segment span the names that it fits.
* `tokensBehind`, `tokensAtStart` — the tokens of a pattern, behind a `/` and at the start.
* `matches_iff_cuts` — patterns match what can be cut along their segments.
-/

namespace ProjectLayout.Glob

open Disk (pathOf toList_pathOf)

/-! ## Segments -/

/-- Whether a text is a segment of a pattern: `**`, or a text of plain characters and single
stars. -/
def IsSegment (segment : String) : Prop :=
  segment = "**" ∨ segment ≠ "" ∧ ¬['*', '*'] <:+: segment.toList ∧
    ∀ c ∈ segment.toList, c = '*' ∨ isSpecial c = false ∧ c ≠ '/'

/-- Whether a text is a segment of a path. -/
def IsPathSegment (name : String) : Prop := name ≠ "" ∧ '/' ∉ name.toList

-- The characters are gone through one by one: those of the text, not all that there are.
instance (segment : String) : Decidable (IsSegment segment) :=
  haveI : Decidable (∀ c ∈ segment.toList, c = '*' ∨ isSpecial c = false ∧ c ≠ '/') :=
    List.decidableBAll _ _
  inferInstanceAs (Decidable (_ ∨ _))

instance (name : String) : Decidable (IsPathSegment name) := inferInstanceAs (Decidable (_ ∧ _))

/-- Whether a segment matches a name: a `*` stands for any text without a `/`, and another character
for itself. -/
inductive Fits : List Char → List Char → Prop where
  | nil : Fits [] []
  | char {c : Char} {segment name : List Char} (hc : c ≠ '*') (h : Fits segment name) :
      Fits (c :: segment) (c :: name)
  | star {segment name : List Char} (front : List Char) (hfront : '/' ∉ front)
      (h : Fits segment name) : Fits ('*' :: segment) (front ++ name)

/-- Whether names can be cut along the segments of a pattern: the last segment takes one or more of
them if it is `**`, a `**` in front of others any number, and another segment the one that it
fits. -/
inductive Cuts : List String → List String → Prop where
  | nil : Cuts [] []
  | last {names : List String} (hne : names ≠ []) : Cuts ["**"] names
  | dirs {more names : List String} (hmore : more ≠ []) (skipped : List String)
      (h : Cuts more names) : Cuts ("**" :: more) (skipped ++ names)
  | name {segment name : String} {more names : List String} (hne : segment ≠ "**")
      (hfits : Fits segment.toList name.toList) (h : Cuts more names) :
      Cuts (segment :: more) (name :: names)

/-- The tokens of a segment that is not `**`. -/
def segmentTokens (segment : List Char) : List Token :=
  segment.map fun c => if c = '*' then .star else .literal c

/-! ## One segment -/

theorem fits_self {s : List Char} (h : '*' ∉ s) : Fits s s := by
  induction s with
  | nil => exact .nil
  | cons c s ih =>
    rw [List.mem_cons, not_or] at h
    exact .char (Ne.symm h.1) (ih h.2)

theorem spans_of_fits {segment name : List Char} (h : Fits segment name) :
    Spans (segmentTokens segment) (utf8Bytes name) := by
  induction h with
  | nil => rfl
  | @char c segment name hc _ ih =>
    rw [segmentTokens, List.map_cons, if_neg hc, utf8Bytes_cons]
    exact ⟨_, _, rfl, by rw [Token.Spans], ih⟩
  | @star segment name front hfront _ ih =>
    rw [segmentTokens, List.map_cons, if_pos rfl, utf8Bytes_append]
    refine ⟨_, _, rfl, ?_, ih⟩
    rw [Token.Spans, slash_mem_utf8Bytes]
    exact hfront

/-- What a segment without adjacent stars spans behind a star begins where a character of the name
begins. -/
theorem exists_cut_of_spans {segment name : List Char} {u v : List UInt8}
    (hhead : segment.head? ≠ some '*') (hname : utf8Bytes name = u ++ v)
    (hv : Spans (segmentTokens segment) v) :
    ∃ front back, name = front ++ back ∧ u = utf8Bytes front ∧ v = utf8Bytes back := by
  by_cases hnil : name = []
  · subst hnil
    obtain ⟨rfl, rfl⟩ := List.append_eq_nil_iff.mp hname.symm
    exact ⟨[], [], rfl, rfl, rfl⟩
  obtain ⟨front, d, back, a, b, rfl, hd, rfl, rfl⟩ := exists_cut_char hnil hname
  by_cases hb : b = []
  · subst hb
    rw [List.append_nil] at hd
    exact ⟨front ++ [d], back, by simp, by simp [utf8Bytes, hd], rfl⟩
  cases segment with
  | nil => exact absurd (List.append_eq_nil_iff.mp hv).1 hb
  | cons c segment =>
    have hc : c ≠ '*' := fun heq => hhead (by rw [heq]; rfl)
    rw [segmentTokens, List.map_cons, if_neg hc] at hv
    obtain ⟨_, w, hsplit, hw, -⟩ := hv
    rw [Token.Spans] at hw
    subst hw
    obtain rfl := eq_nil_of_utf8EncodeChar_append hd hb hsplit
    exact ⟨front, d :: back, rfl, by simp, by rw [utf8Bytes_cons, hd]; simp⟩

theorem fits_of_spans {segment name : List Char} (hstars : ¬['*', '*'] <:+: segment)
    (hslash : '/' ∉ name) (h : Spans (segmentTokens segment) (utf8Bytes name)) :
    Fits segment name := by
  induction segment generalizing name with
  | nil =>
    have hname : name = [] := utf8Bytes_injective h
    subst hname
    exact .nil
  | cons c segment ih =>
    have hmore : ¬['*', '*'] <:+: segment :=
      fun hin => hstars (hin.trans (List.infix_cons List.infix_rfl))
    rw [segmentTokens, List.map_cons] at h
    obtain ⟨u, v, hsplit, hu, hv⟩ := h
    by_cases hc : c = '*'
    · subst hc
      have hhead : segment.head? ≠ some '*' := by
        intro heq
        obtain ⟨rest, rfl⟩ := List.head?_eq_some_iff.mp heq
        exact hstars (List.IsPrefix.isInfix ⟨rest, rfl⟩)
      obtain ⟨front, back, rfl, rfl, rfl⟩ := exists_cut_of_spans hhead hsplit hv
      rw [List.mem_append, not_or] at hslash
      exact .star front hslash.1 (ih hmore hslash.2 hv)
    · rw [if_neg hc, Token.Spans] at hu
      subst hu
      cases name with
      | nil => exact absurd (List.append_eq_nil_iff.mp hsplit.symm).1 String.utf8EncodeChar_ne_nil
      | cons d name =>
        obtain ⟨rfl, rfl⟩ := utf8EncodeChar_append_inj hsplit
        exact .char hc (ih hmore (fun hm => hslash (List.mem_cons_of_mem _ hm)) hv)

/-- The tokens of a segment span the names that it fits. -/
theorem spans_segmentTokens_iff {segment name : List Char} (hstars : ¬['*', '*'] <:+: segment)
    (hslash : '/' ∉ name) :
    Spans (segmentTokens segment) (utf8Bytes name) ↔ Fits segment name :=
  ⟨fits_of_spans hstars hslash, spans_of_fits⟩

/-- What a segment spans stays between separators. -/
theorem slash_not_mem_of_spans {segment : List Char} (hslash : '/' ∉ segment) {w : List UInt8}
    (h : Spans (segmentTokens segment) w) : slash ∉ w := by
  induction segment generalizing w with
  | nil =>
    rw [show w = [] from h]
    exact List.not_mem_nil
  | cons c segment ih =>
    rw [List.mem_cons, not_or] at hslash
    rw [segmentTokens, List.map_cons] at h
    obtain ⟨u, v, rfl, hu, hv⟩ := h
    rw [List.mem_append, not_or]
    refine ⟨?_, ih hslash.2 hv⟩
    split at hu
    · rwa [Token.Spans] at hu
    · rw [Token.Spans] at hu
      rw [hu, slash_mem_utf8EncodeChar]
      exact Ne.symm hslash.1

/-! ## Names one after another -/

/-- The bytes of names with a `/` in front of each. -/
def behind (names : List String) : List UInt8 :=
  names.flatMap fun name => slash :: utf8Bytes name.toList

@[simp] theorem behind_nil : behind [] = [] := rfl

@[simp] theorem behind_cons (name : String) (names : List String) :
    behind (name :: names) = slash :: (utf8Bytes name.toList ++ behind names) := rfl

@[simp] theorem behind_append (names more : List String) :
    behind (names ++ more) = behind names ++ behind more := List.flatMap_append

theorem utf8Bytes_slash_cons (s : List Char) : utf8Bytes ('/' :: s) = slash :: utf8Bytes s := by
  rw [utf8Bytes_cons, show String.utf8EncodeChar '/' = [slash] by decide]
  rfl

theorem toList_pathOf_singleton (name : String) : (pathOf [name]).toList = name.toList := by
  simp [toList_pathOf, Text.joinWith]

theorem toList_pathOf_cons_cons (name next : String) (rest : List String) :
    (pathOf (name :: next :: rest)).toList =
      name.toList ++ '/' :: (pathOf (next :: rest)).toList := by
  simp [toList_pathOf, Text.joinWith]

theorem slash_cons_utf8Bytes_pathOf {names : List String} (hne : names ≠ []) :
    slash :: utf8Bytes (pathOf names).toList = behind names := by
  induction names with
  | nil => exact absurd rfl hne
  | cons name names ih =>
    cases names with
    | nil => simp [toList_pathOf_singleton]
    | cons next rest =>
      rw [toList_pathOf_cons_cons, utf8Bytes_append, utf8Bytes_slash_cons, ih (by simp)]
      rfl

/-- Whether bytes are none or begin with a `/`. -/
def BeginsSegment (w : List UInt8) : Prop := w = [] ∨ ∃ v, w = slash :: v

theorem beginsSegment_behind (names : List String) : BeginsSegment (behind names) := by
  cases names with
  | nil => exact .inl rfl
  | cons name names => exact .inr ⟨_, rfl⟩

/-- There is one way to cut bytes in front of the first `/`. -/
theorem append_inj_of_beginsSegment {u v x y : List UInt8} (hu : slash ∉ u) (hx : slash ∉ x)
    (hv : BeginsSegment v) (hy : BeginsSegment y) (h : u ++ v = x ++ y) : u = x ∧ v = y := by
  have htake {front back : List UInt8} (hfront : slash ∉ front) (hback : BeginsSegment back) :
      (front ++ back).takeWhile (· != slash) = front := by
    have hall : ∀ b ∈ front, (b != slash) = true := by
      intro b hb
      rw [bne_iff_ne]
      rintro rfl
      exact hfront hb
    rw [List.takeWhile_append_of_pos hall]
    rcases hback with rfl | ⟨more, rfl⟩ <;> simp
  have hux : u = x := by rw [← htake hu hv, h, htake hx hy]
  subst hux
  exact ⟨rfl, List.append_cancel_left h⟩

/-- A cut at a `/` between names is a cut of the names. -/
theorem behind_eq_append_iff {names : List String} (hnames : ∀ name ∈ names, '/' ∉ name.toList)
    {x w : List UInt8} :
    behind names = x ++ slash :: w ↔ ∃ skipped name more, names = skipped ++ name :: more ∧
      x = behind skipped ∧ w = utf8Bytes name.toList ++ behind more := by
  constructor
  · intro h
    induction names generalizing x with
    | nil => simp at h
    | cons name names ih =>
      cases x with
      | nil =>
        exact ⟨[], name, names, rfl, rfl, (List.cons.inj h).2.symm⟩
      | cons b x =>
        obtain ⟨rfl, hrest⟩ := List.cons.inj h
        rcases List.append_eq_append_iff.mp hrest with ⟨y, hx, hy⟩ | ⟨y, hname, hy⟩
        · obtain ⟨skipped, next, more, rfl, rfl, hw⟩ :=
            ih (fun n hn => hnames n (List.mem_cons_of_mem _ hn)) hy
          exact ⟨name :: skipped, next, more, rfl, by rw [hx]; rfl, hw⟩
        · cases y with
          | nil =>
            rw [List.append_nil] at hname
            obtain ⟨skipped, next, more, rfl, hnil, hw⟩ :=
              ih (x := []) (fun n hn => hnames n (List.mem_cons_of_mem _ hn)) hy.symm
            exact ⟨name :: skipped, next, more, rfl, by simp [← hname, ← hnil], hw⟩
          | cons c y =>
            obtain ⟨rfl, -⟩ := List.cons.inj hy
            have hmem : slash ∈ utf8Bytes name.toList := by simp [hname]
            exact absurd (slash_mem_utf8Bytes.mp hmem) (hnames name List.mem_cons_self)
  · rintro ⟨skipped, name, more, rfl, rfl, rfl⟩
    simp

/-! ## Tokens of a pattern -/

/-- The tokens of the segments behind a `/`; with `skipping` a `**` stands between that `/` and
them. -/
def tokensBehind (skipping : Bool) : List String → List Token
  | [] => if skipping then [.trailingDirs] else []
  | segment :: more =>
    if segment = "**" then tokensBehind true more
    else (if skipping then .middleDirs else .literal '/') ::
      (segmentTokens segment.toList ++ tokensBehind false more)

/-- The tokens of the segments at the start; with `skipping` behind a `**`. -/
def tokensAtStart (skipping : Bool) : List String → List Token
  | [] => if skipping then [.leadingDirs] else []
  | segment :: more =>
    if segment = "**" then tokensAtStart true more
    else (if skipping then [.leadingDirs] else []) ++
      (segmentTokens segment.toList ++ tokensBehind false more)

theorem spans_literal_slash_iff {tokens : List Token} {w : List UInt8} :
    Spans (.literal '/' :: tokens) w ↔ ∃ v, w = slash :: v ∧ Spans tokens v := by
  have hbytes : String.utf8EncodeChar '/' = [slash] := by decide
  constructor
  · rintro ⟨u, v, rfl, hu, hv⟩
    rw [Token.Spans, hbytes] at hu
    exact ⟨v, by rw [hu]; rfl, hv⟩
  · rintro ⟨v, rfl, hv⟩
    exact ⟨[slash], v, rfl, by rw [Token.Spans, hbytes], hv⟩

/-- A `**` between separators goes to one of the next `/`. -/
theorem spans_middleDirs_iff {tokens : List Token} {w : List UInt8} :
    Spans (.middleDirs :: tokens) w ↔
      ∃ x v, w = x ++ slash :: v ∧ BeginsSegment x ∧ Spans tokens v := by
  constructor
  · rintro ⟨u, v, rfl, hu, hv⟩
    rw [Token.Spans] at hu
    rcases hu with rfl | ⟨x, rfl⟩
    · exact ⟨[], v, rfl, .inl rfl, hv⟩
    · exact ⟨slash :: x, v, by simp, .inr ⟨x, rfl⟩, hv⟩
  · rintro ⟨x, v, rfl, hx, hv⟩
    refine ⟨x ++ [slash], v, by simp, ?_, hv⟩
    rw [Token.Spans]
    rcases hx with rfl | ⟨y, rfl⟩
    · exact .inl rfl
    · exact .inr ⟨y, rfl⟩

theorem spans_leadingDirs_iff {tokens : List Token} {w : List UInt8} :
    Spans (.leadingDirs :: tokens) w ↔ Spans (.middleDirs :: tokens) (slash :: w) := by
  rw [spans_middleDirs_iff]
  constructor
  · rintro ⟨u, v, rfl, hu, hv⟩
    rw [Token.Spans] at hu
    rcases hu with rfl | ⟨x, rfl⟩
    · exact ⟨[], v, rfl, .inl rfl, hv⟩
    · exact ⟨slash :: x, v, by simp, .inr ⟨x, rfl⟩, hv⟩
  · rintro ⟨x, v, hw, rfl | ⟨y, rfl⟩, hv⟩
    · obtain rfl : w = v := (List.cons.inj hw).2
      exact ⟨[], w, rfl, by rw [Token.Spans]; exact .inl rfl, hv⟩
    · obtain rfl : w = y ++ slash :: v := (List.cons.inj hw).2
      exact ⟨y ++ [slash], v, by simp, by rw [Token.Spans]; exact .inr ⟨y, rfl⟩, hv⟩

theorem leadingDirs_not_mem_segmentTokens (segment : List Char) :
    Token.leadingDirs ∉ segmentTokens segment := by
  rw [segmentTokens, List.mem_map]
  rintro ⟨c, -, hc⟩
  split at hc <;> cases hc

/-- At the start a pattern matches what it would span behind a `/`. -/
theorem matchesTokens_tokensAtStart {skipping : Bool} {segments : List String}
    (hne : skipping = true ∨ segments ≠ []) (hsegments : "" ∉ segments) {w : List UInt8} :
    matchesTokens (tokensAtStart skipping segments) w = true ↔
      Spans (tokensBehind skipping segments) (slash :: w) := by
  induction segments generalizing skipping with
  | nil =>
    obtain rfl : skipping = true := hne.resolve_right (· rfl)
    refine iff_of_true rfl ⟨slash :: w, [], by simp, ?_, rfl⟩
    rw [Token.Spans]
    exact ⟨w, rfl⟩
  | cons segment more ih =>
    rw [List.mem_cons, not_or] at hsegments
    rw [tokensAtStart, tokensBehind]
    split
    · exact ih (.inl rfl) hsegments.2
    have hempty : segmentTokens segment.toList ≠ [] := by
      simpa [segmentTokens] using Ne.symm hsegments.1
    rw [matchesTokens_iff]
    cases skipping with
    | false =>
      have hlone : segmentTokens segment.toList ++ tokensBehind false more ≠ [.leadingDirs] := by
        intro heq
        obtain ⟨t, rest, ht⟩ := List.exists_cons_of_ne_nil hempty
        rw [ht] at heq
        have hmem : Token.leadingDirs ∈ segmentTokens segment.toList := by
          rw [ht, (List.cons.inj heq).1]
          exact List.mem_cons_self
        exact leadingDirs_not_mem_segmentTokens _ hmem
      simp only [Bool.false_eq_true, if_false, List.nil_append]
      rw [or_iff_right hlone, spans_literal_slash_iff]
      simp
    | true =>
      simp only [if_true, List.singleton_append]
      rw [or_iff_right (by simp [hempty]), spans_leadingDirs_iff]

/-! ## Cuts -/

theorem cuts_name_iff {segment : String} (hne : segment ≠ "**") {more names : List String} :
    Cuts (segment :: more) names ↔ ∃ name rest, names = name :: rest ∧
      Fits segment.toList name.toList ∧ Cuts more rest := by
  constructor
  · intro h
    cases h with
    | last => exact absurd rfl hne
    | dirs => exact absurd rfl hne
    | @name _ name _ rest _ hfits hmore => exact ⟨name, rest, rfl, hfits, hmore⟩
  · rintro ⟨name, rest, rfl, hfits, hmore⟩
    exact .name hne hfits hmore

theorem cuts_dirs_iff {more names : List String} (hne : more ≠ []) :
    Cuts ("**" :: more) names ↔ ∃ skipped rest, names = skipped ++ rest ∧ Cuts more rest := by
  constructor
  · intro h
    cases h with
    | last => exact absurd rfl hne
    | @dirs _ rest _ skipped h => exact ⟨skipped, rest, rfl, h⟩
    | name hdirs => exact absurd rfl hdirs
  · rintro ⟨skipped, rest, rfl, h⟩
    exact .dirs hne skipped h

theorem cuts_last_iff {names : List String} : Cuts ["**"] names ↔ names ≠ [] := by
  constructor
  · intro h
    cases h with
    | last hne => exact hne
    | dirs hmore => exact absurd rfl hmore
    | name hdirs => exact absurd rfl hdirs
  · exact .last

/-- Two adjacent `**` are one. -/
theorem cuts_dirs_dirs_iff {more names : List String} :
    Cuts ("**" :: "**" :: more) names ↔ Cuts ("**" :: more) names := by
  rw [cuts_dirs_iff (by simp)]
  constructor
  · rintro ⟨skipped, rest, rfl, h⟩
    cases h with
    | last hne => exact .last (List.append_ne_nil_of_right_ne_nil _ hne)
    | @dirs _ rest hmore others h => exact List.append_assoc _ _ _ ▸ .dirs hmore _ h
    | name hdirs => exact absurd rfl hdirs
  · intro h
    exact ⟨[], names, rfl, h⟩

/-- What the tokens behind a `/` span is nothing or begins with that `/`. -/
theorem beginsSegment_of_spans {skipping : Bool} {segments : List String} {w : List UInt8}
    (h : Spans (tokensBehind skipping segments) w) : BeginsSegment w := by
  induction segments generalizing skipping with
  | nil =>
    cases skipping with
    | false => exact .inl h
    | true => exact .inr (spans_trailingDirs.mp h)
  | cons segment more ih =>
    rw [tokensBehind] at h
    split at h
    · exact ih h
    cases skipping with
    | false =>
      obtain ⟨v, rfl, -⟩ := spans_literal_slash_iff.mp h
      exact .inr ⟨v, rfl⟩
    | true =>
      obtain ⟨x, v, rfl, rfl | ⟨y, rfl⟩, -⟩ := spans_middleDirs_iff.mp h
      · exact .inr ⟨v, rfl⟩
      · exact .inr ⟨y ++ slash :: v, rfl⟩

/-- A segment and what is behind it span a name that the segment fits and what is behind it. -/
theorem spans_segment_iff {segment : String} (hsegment : IsSegment segment)
    (hne : segment ≠ "**") {more : List String} {name : String} (hname : '/' ∉ name.toList)
    {names : List String} :
    Spans (segmentTokens segment.toList ++ tokensBehind false more)
        (utf8Bytes name.toList ++ behind names) ↔
      Fits segment.toList name.toList ∧ Spans (tokensBehind false more) (behind names) := by
  obtain ⟨-, hstars, hplain⟩ := hsegment.resolve_left hne
  have hslash : '/' ∉ segment.toList :=
    fun hm => (hplain _ hm).elim (by decide) fun hp => hp.2 rfl
  rw [← spans_segmentTokens_iff hstars hname, spans_append]
  constructor
  · rintro ⟨u, v, hsplit, hu, hv⟩
    obtain ⟨rfl, rfl⟩ := append_inj_of_beginsSegment (fun hm => hname (slash_mem_utf8Bytes.mp hm))
      (slash_not_mem_of_spans hslash hu) (beginsSegment_behind names) (beginsSegment_of_spans hv)
      hsplit
    exact ⟨hu, hv⟩
  · rintro ⟨hu, hv⟩
    exact ⟨_, _, rfl, hu, hv⟩

/-- The tokens behind a `/` span the names that can be cut along their segments. -/
theorem spans_tokensBehind_iff {segments : List String} (hsegments : ∀ s ∈ segments, IsSegment s)
    (skipping : Bool) {names : List String} (hnames : ∀ name ∈ names, '/' ∉ name.toList) :
    Spans (tokensBehind skipping segments) (behind names) ↔
      Cuts (if skipping then "**" :: segments else segments) names := by
  induction segments generalizing skipping names with
  | nil =>
    cases skipping with
    | false =>
      simp only [Bool.false_eq_true, if_false, tokensBehind]
      cases names with
      | nil => exact iff_of_true rfl .nil
      | cons name names =>
        refine iff_of_false (fun h => ?_) fun h => by cases h
        cases (show behind (name :: names) = [] from h)
    | true =>
      simp only [if_true, tokensBehind]
      rw [spans_trailingDirs, cuts_last_iff]
      cases names <;> simp
  | cons segment more ih =>
    obtain ⟨hsegment, hmore⟩ := List.forall_mem_cons.mp hsegments
    by_cases hdirs : segment = "**"
    · rw [tokensBehind, if_pos hdirs, hdirs, ih hmore true hnames]
      cases skipping with
      | false => rfl
      | true => exact cuts_dirs_dirs_iff.symm
    rw [tokensBehind, if_neg hdirs]
    -- one name for the segment, and the names behind it for the segments behind it
    have hname {name : String} {rest : List String}
        (h : ∀ n ∈ name :: rest, '/' ∉ n.toList) :
        Spans (segmentTokens segment.toList ++ tokensBehind false more)
            (utf8Bytes name.toList ++ behind rest) ↔
          Cuts (segment :: more) (name :: rest) := by
      obtain ⟨hslash, hrest⟩ := List.forall_mem_cons.mp h
      rw [spans_segment_iff hsegment hdirs hslash, ih hmore false hrest, cuts_name_iff hdirs]
      constructor
      · rintro ⟨hfits, hcuts⟩
        exact ⟨name, rest, rfl, hfits, hcuts⟩
      · rintro ⟨_, _, heq, hfits, hcuts⟩
        obtain ⟨rfl, rfl⟩ := List.cons.inj heq
        exact ⟨hfits, hcuts⟩
    cases skipping with
    | false =>
      simp only [Bool.false_eq_true, if_false]
      rw [spans_literal_slash_iff]
      cases names with
      | nil =>
        refine iff_of_false (by simp) fun h => ?_
        obtain ⟨_, _, hnil, -⟩ := (cuts_name_iff hdirs).mp h
        cases hnil
      | cons name rest =>
        rw [← hname hnames]
        simp
    | true =>
      simp only [if_true]
      rw [spans_middleDirs_iff, cuts_dirs_iff (by simp)]
      constructor
      · rintro ⟨x, v, hsplit, -, hv⟩
        obtain ⟨skipped, name, rest, rfl, rfl, rfl⟩ := (behind_eq_append_iff hnames).mp hsplit
        exact ⟨skipped, name :: rest, rfl,
          (hname fun n hn => hnames n (List.mem_append_right _ hn)).mp hv⟩
      · rintro ⟨skipped, names, rfl, h⟩
        obtain ⟨name, rest, rfl, -, -⟩ := (cuts_name_iff hdirs).mp h
        exact ⟨behind skipped, _, (behind_append skipped _).trans rfl, beginsSegment_behind skipped,
          (hname fun n hn => hnames n (List.mem_append_right _ hn)).mpr h⟩

/-! ## Reading -/

theorem ne_and_spansNothing_of_isSpecial {c : Char} (h : isSpecial c = false) :
    c ≠ '?' ∧ spansNothing c = false := by
  simpa [isSpecial] using h

/-- A segment that is not `**` is read as its tokens. -/
theorem readPattern_segment {segment : List Char} (hstars : ¬['*', '*'] <:+: segment)
    (hplain : ∀ c ∈ segment, c = '*' ∨ isSpecial c = false ∧ c ≠ '/') {rest : List Char}
    (hrest : rest.head? ≠ some '*') (fuel : Nat) {st : State} (hst : st.groups = []) :
    ∃ previous, readPattern (fuel + segment.length) st (segment ++ rest) =
      readPattern fuel ⟨(segmentTokens segment).reverse ++ st.branch, [], previous⟩ rest := by
  induction segment generalizing st with
  | nil => exact ⟨st.previous, by rw [← hst]; rfl⟩
  | cons c segment ih =>
    obtain ⟨hc, hplain⟩ := List.forall_mem_cons.mp hplain
    have hmore : ¬['*', '*'] <:+: segment :=
      fun hin => hstars (hin.trans (List.infix_cons List.infix_rfl))
    have hpiece : readPiece st c (segment ++ rest) =
        .ok (({ st with previous := some c } : State).push (if c = '*' then .star else .literal c),
          segment ++ rest) := by
      rcases hc with rfl | ⟨hc, -⟩
      · have hhead : (segment ++ rest).head? ≠ some '*' := by
          cases segment with
          | nil => exact hrest
          | cons d segment =>
            intro heq
            obtain rfl : d = '*' := Option.some.inj heq
            exact hstars (List.IsPrefix.isInfix ⟨segment, rfl⟩)
        rw [readPiece_star, readStars_of_head?_ne hhead, if_pos rfl]
      · obtain ⟨hquestion, hspans⟩ := ne_and_spansNothing_of_isSpecial hc
        have hstar : c ≠ '*' := by
          rintro rfl
          cases hspans
        rw [readPiece_eq_push hst hspans, tokenOf, if_neg hquestion, if_neg hstar]
    have hgroups : (({ st with previous := some c } : State).push
        (if c = '*' then .star else .literal c)).groups = [] := hst
    obtain ⟨previous, hread⟩ := ih hmore hplain hgroups
    refine ⟨previous, ?_⟩
    rw [List.length_cons, ← Nat.add_assoc, List.cons_append, readPattern_cons, hpiece, Except.bind,
      hread]
    simp [segmentTokens, State.push]

/-- A segment that is not `**` and what is behind it are read one after the other. -/
theorem readPattern_name {segment : String} (hsegment : IsSegment segment) (hne : segment ≠ "**")
    {more : List String} {fuel : Nat} {st : State} (hst : st.groups = [])
    (hfuel : (pathOf (segment :: more)).toList.length ≤ fuel)
    (hmore : ∀ older fuel, more ≠ [] → (pathOf more).toList.length ≤ fuel →
      readPattern fuel ⟨.literal '/' :: older, [], some '/'⟩ (pathOf more).toList =
        .ok (older.reverse ++ tokensBehind false more)) :
    readPattern fuel st (pathOf (segment :: more)).toList =
      .ok (st.branch.reverse ++ (segmentTokens segment.toList ++ tokensBehind false more)) := by
  obtain ⟨-, hstars, hplain⟩ := hsegment.resolve_left hne
  cases more with
  | nil =>
    have hhead : ([] : List Char).head? ≠ some '*' := by simp
    rw [toList_pathOf_singleton] at hfuel ⊢
    obtain ⟨n, rfl⟩ := Nat.exists_eq_add_of_le' hfuel
    obtain ⟨previous, hread⟩ := readPattern_segment hstars hplain hhead n hst
    rw [List.append_nil] at hread
    rw [hread, readPattern_nil]
    simp [tokensBehind]
  | cons next rest =>
    have hhead : ('/' :: (pathOf (next :: rest)).toList).head? ≠ some '*' := by simp
    rw [toList_pathOf_cons_cons, List.length_append, List.length_cons] at hfuel
    obtain ⟨n, rfl⟩ := Nat.exists_eq_add_of_le' (Nat.le_of_add_right_le hfuel)
    obtain ⟨previous, hread⟩ := readPattern_segment hstars hplain hhead n hst
    obtain ⟨m, rfl⟩ := Nat.exists_eq_add_of_le' (show 1 ≤ n by omega)
    rw [toList_pathOf_cons_cons, hread, readPattern_cons, readPiece_eq_push rfl (by decide),
      Except.bind]
    have hbehind := hmore ((segmentTokens segment.toList).reverse ++ st.branch) m (by simp)
      (by omega)
    rw [show tokenOf '/' = .literal '/' from if_neg (by decide)]
    refine hbehind.trans ?_
    simp

/-- A `**` and what is behind it are read one after the other: in front of a `/` it leads to `next`,
and at the end to `last`. -/
theorem readPattern_dirs {st next last : State}
    (hnext : ∀ rest, readPiece st '*' ('*' :: '/' :: rest) = .ok (next, rest))
    (hlast : readPiece st '*' ['*'] = .ok (last, [])) (hgroups : last.groups = [])
    {more : List String} {fuel : Nat} {tokens : List Token}
    (hfuel : (pathOf ("**" :: more)).toList.length ≤ fuel)
    (hempty : more = [] → tokens = last.branch.reverse)
    (hmore : ∀ fuel, more ≠ [] → (pathOf more).toList.length ≤ fuel →
      readPattern fuel next (pathOf more).toList = .ok tokens) :
    readPattern fuel st (pathOf ("**" :: more)).toList = .ok tokens := by
  cases more with
  | nil =>
    obtain ⟨n, rfl⟩ := Nat.exists_eq_add_of_le' hfuel
    rw [toList_pathOf_singleton, hempty rfl]
    refine (readPattern_cons _ _ '*' ['*']).trans ?_
    rw [hlast, Except.bind, readPattern_nil, hgroups]
    rfl
  | cons segment rest =>
    rw [toList_pathOf_cons_cons] at hfuel ⊢
    have hlength : (pathOf (segment :: rest)).toList.length + 3 ≤ fuel := hfuel
    obtain ⟨n, rfl⟩ := Nat.exists_eq_add_of_le' (show 1 ≤ fuel by omega)
    refine (readPattern_cons _ _ '*' ('*' :: '/' :: _)).trans ?_
    rw [hnext, Except.bind]
    exact hmore n (by simp) (by omega)

/-- What has been read behind a `/`, and behind a `**` there if `skipping`. -/
def stateBehind (skipping : Bool) (older : List Token) : State :=
  ⟨(if skipping then .middleDirs else .literal '/') :: older, [], some '/'⟩

/-- What has been read at the start, with `skipping` a `**`. -/
def stateAtStart (skipping : Bool) : State :=
  if skipping then ⟨[.leadingDirs], [], some '/'⟩ else ⟨[], [], none⟩

theorem readPiece_dirs_behind (skipping : Bool) (older : List Token) (rest : List Char) :
    readPiece (stateBehind skipping older) '*' ('*' :: '/' :: rest) =
      .ok (stateBehind true older, rest) := by
  cases skipping <;> rfl

theorem readPiece_dirs_atStart (skipping : Bool) (rest : List Char) :
    readPiece (stateAtStart skipping) '*' ('*' :: '/' :: rest) = .ok (stateAtStart true, rest) := by
  cases skipping <;> rfl

theorem readPiece_last_behind (skipping : Bool) (older : List Token) :
    readPiece (stateBehind skipping older) '*' ['*'] =
      .ok (⟨.trailingDirs :: older, [], some '*'⟩, []) := by
  cases skipping <;> rfl

theorem readPiece_last_atStart (skipping : Bool) :
    readPiece (stateAtStart skipping) '*' ['*'] =
      .ok (⟨[.leadingDirs], [], some '*'⟩, []) := by
  cases skipping <;> rfl

/-- Segments behind a `/` are read as their tokens. -/
theorem readPattern_behind {segments : List String} (hsegments : ∀ s ∈ segments, IsSegment s)
    (hne : segments ≠ []) (skipping : Bool) (older : List Token) {fuel : Nat}
    (hfuel : (pathOf segments).toList.length ≤ fuel) :
    readPattern fuel (stateBehind skipping older) (pathOf segments).toList =
      .ok (older.reverse ++ tokensBehind skipping segments) := by
  induction segments generalizing skipping older fuel with
  | nil => exact absurd rfl hne
  | cons segment more ih =>
    obtain ⟨hsegment, hmore⟩ := List.forall_mem_cons.mp hsegments
    by_cases hdirs : segment = "**"
    · subst hdirs
      rw [tokensBehind, if_pos rfl]
      refine readPattern_dirs (readPiece_dirs_behind skipping older)
        (readPiece_last_behind skipping older) rfl hfuel ?_ fun fuel hmany hfuel =>
          ih hmore hmany true older hfuel
      rintro rfl
      simp [tokensBehind]
    · rw [readPattern_name hsegment hdirs rfl hfuel fun older fuel hmany hfuel =>
        ih hmore hmany false older hfuel]
      simp [tokensBehind, hdirs, stateBehind]

/-- A pattern is read as its tokens. -/
theorem readPattern_atStart {segments : List String} (hsegments : ∀ s ∈ segments, IsSegment s)
    (hne : segments ≠ []) (skipping : Bool) {fuel : Nat}
    (hfuel : (pathOf segments).toList.length ≤ fuel) :
    readPattern fuel (stateAtStart skipping) (pathOf segments).toList =
      .ok (tokensAtStart skipping segments) := by
  induction segments generalizing skipping fuel with
  | nil => exact absurd rfl hne
  | cons segment more ih =>
    obtain ⟨hsegment, hmore⟩ := List.forall_mem_cons.mp hsegments
    by_cases hdirs : segment = "**"
    · subst hdirs
      rw [tokensAtStart, if_pos rfl]
      refine readPattern_dirs (readPiece_dirs_atStart skipping) (readPiece_last_atStart skipping)
        rfl hfuel ?_ fun fuel hmany hfuel => ih hmore hmany true hfuel
      rintro rfl
      rfl
    · have hgroups : (stateAtStart skipping).groups = [] := by cases skipping <;> rfl
      rw [readPattern_name hsegment hdirs hgroups hfuel fun older fuel hmany hfuel =>
        readPattern_behind hmore hmany false older hfuel]
      cases skipping <;> simp [tokensAtStart, hdirs, stateAtStart]

/-! ## Patterns -/

theorem head?_pathOf_ne {names : List String} (hne : names ≠ [])
    (hnames : ∀ name ∈ names, IsPathSegment name) : (pathOf names).toList.head? ≠ some '/' := by
  obtain ⟨name, more, rfl⟩ := List.exists_cons_of_ne_nil hne
  obtain ⟨hempty, hslash⟩ := hnames name List.mem_cons_self
  have hhead : name.toList.head? ≠ some '/' := fun h => hslash (List.mem_of_head? h)
  cases more with
  | nil => rwa [toList_pathOf_singleton]
  | cons next rest =>
    rwa [toList_pathOf_cons_cons, List.head?_append, Option.or_of_isSome (by simpa using hempty)]

end ProjectLayout.Glob
