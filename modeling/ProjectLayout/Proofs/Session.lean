import ProjectLayout.Validator

/-!
# Sessions of a validator

One validator (`ProjectValidator`) is run again and again while the disk under it changes in any
way.  A run that aborts ends the session, as it ends the program.

* `Event`, `Session` — what happens to a validator and its disk, and what the runs have returned.
* `disksOfRuns` — the disks that runs see, read off the events alone.
* `Session.LikeFresh` — that earlier runs have left nothing behind but the state.
* `Session.LikeFresh.change`, `Session.LikeFresh.run` — one event keeps it.
* `Session.runs_like_fresh` — so does every session, up to a run in which a fresh validator would
  abort as well.
-/

namespace ProjectLayout

open Scan (Scanner)

/-! ## Events -/

/-- What can happen in a session. -/
inductive Event where
  /-- The disk is changed. -/
  | change (edit : Disk → Disk)
  /-- The validator is run. -/
  | run

/-- A validator with the disk it works on. -/
structure Session where
  validator : Validator
  disk : Disk
  /-- What the runs have returned, in their order. -/
  outcomes : List (Except RunError ValidationResult)

/-- The disks on which the runs among some events take place. -/
def disksOfRuns : Disk → List Event → List Disk
  | _, [] => []
  | disk, .change edit :: more => disksOfRuns (edit disk) more
  | disk, .run :: more => disk :: disksOfRuns disk more

/-- What a validator returns that was made for this run alone. -/
def freshOutcome (config : Config) (root : String) (disk : Disk) :
    Except RunError ValidationResult :=
  ((Validator.ofConfig config root).run disk).1

/-- The state of a validator between runs. -/
def restingState (outcomes : List (Except RunError ValidationResult)) : Validator.State :=
  match outcomes.getLast? with
  | none => .idle
  | some (.error _) => .idle
  | some (.ok _) => .aggregated

/-- Between runs nothing is being scanned or checked. -/
theorem restingState_ne (outcomes : List (Except RunError ValidationResult)) :
    restingState outcomes ≠ .scanning ∧ restingState outcomes ≠ .evaluating := by
  unfold restingState
  split <;> exact ⟨nofun, nofun⟩

theorem restingState_append (outcomes : List (Except RunError ValidationResult))
    (last : Except RunError ValidationResult) :
    restingState (outcomes ++ [last]) = if last.isOk then .aggregated else .idle := by
  rw [restingState, List.getLast?_concat]
  cases last <;> rfl

namespace Session

/-- A session before anything has happened. -/
def start (config : Config) (root : String) (disk : Disk) : Session :=
  ⟨.ofConfig config root, disk, []⟩

/-- The session after one event, if it goes on. -/
def next (s : Session) : Event → Except Glob.Abort Session
  | .change edit => .ok { s with disk := edit s.disk }
  | .run =>
    match s.validator.run s.disk with
    | (.error (.aborted cause), _) => .error cause
    | (outcome, validator) => .ok { s with validator, outcomes := s.outcomes ++ [outcome] }

/-- The session after some events, if it goes on. -/
def after (s : Session) (events : List Event) : Except Glob.Abort Session := events.foldlM next s

/-! ## Nothing is remembered -/

/-- That the runs of a session took place on these disks and each returned what a fresh validator
returns, and that nothing else is left of them. -/
structure LikeFresh (config : Config) (root : String) (disks : List Disk) (s : Session) : Prop where
  outcomes : s.outcomes = disks.map (freshOutcome config root)
  sameConfig : s.validator.config = config
  sameRoot : s.validator.scanner.root = root
  sameIgnore : s.validator.scanner.ignore = .ofTexts config.ignore
  state : s.validator.state = restingState s.outcomes

variable {config : Config} {root : String} {disks : List Disk} {s : Session}

theorem likeFresh_start (disk : Disk) : (start config root disk).LikeFresh config root [] :=
  ⟨rfl, rfl, rfl, rfl, rfl⟩

/-- A run reads no state, so it returns what a fresh validator returns. -/
theorem LikeFresh.run_fst (h : s.LikeFresh config root disks) (disk : Disk) :
    (s.validator.run disk).1 = freshOutcome config root disk := by
  have hscanner : s.validator.scanner = .ofPatterns root config.ignore := by
    rw [Scanner.ofPatterns, ← h.sameRoot, ← h.sameIgnore]
  rw [freshOutcome, Validator.run_fst, Validator.run_fst, hscanner, h.sameConfig]
  rfl

/-- A change of the disk touches nothing else. -/
theorem LikeFresh.change (h : s.LikeFresh config root disks) (edit : Disk → Disk) :
    LikeFresh config root disks { s with disk := edit s.disk } :=
  ⟨h.outcomes, h.sameConfig, h.sameRoot, h.sameIgnore, h.state⟩

/-- A run that ends by itself adds its outcome, and changes the validator in its state alone. -/
theorem LikeFresh.run (h : s.LikeFresh config root disks)
    (hgoes : ∀ cause, freshOutcome config root s.disk ≠ .error (.aborted cause)) :
    ∃ s', s.next .run = .ok s' ∧ s'.disk = s.disk ∧
      s'.LikeFresh config root (disks ++ [s.disk]) := by
  have hfst : (s.validator.run s.disk).1 = freshOutcome config root s.disk := h.run_fst s.disk
  have hsnd := s.validator.run_snd s.disk
  refine ⟨{ s with
      validator := (s.validator.run s.disk).2
      outcomes := s.outcomes ++ [freshOutcome config root s.disk] }, ?_, rfl, ?_⟩
  · rw [next, ← hfst]
    rw [← hfst] at hgoes
    generalize s.validator.run s.disk = ran at hgoes
    match ran with
    | (.error (.aborted cause), validator) => exact absurd rfl (hgoes cause)
    | (.error (.notScanned cause), validator) => rfl
    | (.ok result, validator) => rfl
  · refine ⟨by rw [List.map_append, ← h.outcomes, List.map_singleton], ?_, ?_, ?_, ?_⟩
    · exact (congrArg Validator.config hsnd).trans h.sameConfig
    · exact (congrArg (·.scanner.root) hsnd).trans h.sameRoot
    · exact (congrArg (·.scanner.ignore) hsnd).trans h.sameIgnore
    · show (s.validator.run s.disk).2.state = restingState (s.outcomes ++ [_])
      rw [hsnd, restingState_append, hfst]
      match hout : freshOutcome config root s.disk with
      | .error (.aborted cause) => exact absurd hout (hgoes cause)
      | .error (.notScanned cause) => rfl
      | .ok result => rfl

/-- A run aborts where a fresh validator does. -/
theorem LikeFresh.next_run_of_aborted (h : s.LikeFresh config root disks) {cause : Glob.Abort}
    (hfresh : freshOutcome config root s.disk = .error (.aborted cause)) :
    s.next .run = .error cause := by
  have hfst := (h.run_fst s.disk).trans hfresh
  rw [next]
  generalize s.validator.run s.disk = ran at hfst
  obtain ⟨outcome, validator⟩ := ran
  dsimp only at hfst
  rw [hfst]

/-- That a session ended in a run: the runs before it, and that a fresh validator aborts in the one
that comes next. -/
def AbortsLikeFresh (config : Config) (root : String) (disks : List Disk) (cause : Glob.Abort) :
    Prop :=
  ∃ before last later, disks = before ++ last :: later ∧
    (∀ disk ∈ before, ∀ other, freshOutcome config root disk ≠ .error (.aborted other)) ∧
    freshOutcome config root last = .error (.aborted cause)

/-- What can be said of a session in which the runs took place on these disks. -/
def IsLikeFresh (config : Config) (root : String) (disks : List Disk) :
    Except Glob.Abort Session → Prop
  | .ok s => s.LikeFresh config root disks ∧
      s.validator.state ≠ .scanning ∧ s.validator.state ≠ .evaluating
  | .error cause => AbortsLikeFresh config root disks cause

/-- The runs that a session has seen are those of disks on which a fresh validator does not
abort. -/
theorem LikeFresh.after (h : s.LikeFresh config root disks)
    (hgoes : ∀ disk ∈ disks, ∀ cause, freshOutcome config root disk ≠ .error (.aborted cause))
    (events : List Event) :
    IsLikeFresh config root (disks ++ disksOfRuns s.disk events) (s.after events) := by
  induction events generalizing s disks with
  | nil =>
    rw [disksOfRuns, List.append_nil]
    exact ⟨h, h.state ▸ restingState_ne _⟩
  | cons event more ih =>
    cases event with
    | change edit => exact ih (h.change edit) hgoes
    | run =>
      rw [disksOfRuns, Session.after, List.foldlM_cons]
      by_cases hfresh : ∃ cause, freshOutcome config root s.disk = .error (.aborted cause)
      · obtain ⟨cause, hfresh⟩ := hfresh
        rw [h.next_run_of_aborted hfresh]
        exact ⟨disks, s.disk, disksOfRuns s.disk more, rfl, hgoes, hfresh⟩
      · obtain ⟨s', hnext, hdisk, h'⟩ := h.run fun cause hcause => hfresh ⟨cause, hcause⟩
        have hmore := ih h' fun disk hdisk cause => by
          rcases List.mem_append.mp hdisk with hdisk | hdisk
          · exact hgoes disk hdisk cause
          · obtain rfl := List.mem_singleton.mp hdisk
            exact fun hcause => hfresh ⟨cause, hcause⟩
        rw [hdisk] at hmore
        rw [hnext, ← List.singleton_append, ← List.append_assoc]
        exact hmore

/-- Whatever happens in a session, each run returns what a fresh validator returns on the disk of
that moment; configuration, root and ignored patterns stay what they were; and between runs the
validator rests in the state that tells how the last run ended.  The session ends early only in a
run that a fresh validator would not survive either. -/
theorem runs_like_fresh (config : Config) (root : String) (disk : Disk) (events : List Event) :
    IsLikeFresh config root (disksOfRuns disk events) ((start config root disk).after events) :=
  (likeFresh_start disk).after nofun events

end Session

end ProjectLayout
