import Gridops.FixAgent.Worker
import Gridops.Lib.Meter

/-!
# Automatic fix runs stay within their limit

A scan counts the automatic runs of the last day once and then inserts up to what is left of the
limit, all at the time of the count. It is the only one that inserts automatic runs, and nothing
takes one away, so what it counted stays right while it inserts; that the limit holds for every
window and not only for the one that ends at a scan is `happenedWithin_concat`.

A workflow run gets one automatic run ever: the candidates have no run when they are read, and
`queued_runs` keeps the scan from using one twice.
-/

namespace Gridops.FixAgent

open Lib (Indexed Machine happenedSince happenedWithin happenedWithin_concat happenedSince_concat)

/-! ## Automatic runs in the table -/

def AgentRun.automatic (r : AgentRun) : Option (Millis × WorkflowRunId) :=
  if r.trigger = .automatic then some (r.createdAt, r.runId) else none

namespace AgentRuns

variable {t u : AgentRuns} {r : AgentRun} {id : RunId} {st : Statement}

def automatic (t : AgentRuns) : List (Millis × WorkflowRunId) := t.rows.filterMap (·.automatic)

def times (t : AgentRuns) : List Millis := t.automatic.map (·.1)

def automaticWithin (t : AgentRuns) (start : Millis) : ℕ :=
  t.rows.countP fun r => r.trigger = .automatic ∧ start ≤ r.createdAt ∧ r.createdAt < start + dayMs

theorem countP_times {q : Millis → Bool} :
    t.times.countP q = t.rows.countP fun r => r.trigger == .automatic && q r.createdAt := by
  simp only [times, automatic]
  induction t.rows with
  | nil => rfl
  | cons r rows ih =>
    rw [List.filterMap_cons, List.countP_cons, ← ih]
    unfold AgentRun.automatic
    by_cases hr : r.trigger = .automatic
    · simp [hr, List.countP_cons]
    · simp [hr]

theorem automaticWithin_eq (start : Millis) :
    t.automaticWithin start = happenedWithin t.times start dayMs := by
  rw [happenedWithin, countP_times, automaticWithin]
  simp [beq_eq_decide]

theorem usedSince_eq (since : Millis) : usedSince t since = happenedSince t.times since := by
  rw [happenedSince, countP_times, usedSince]

theorem automatic_run : (t.run id st).automatic = t.automatic := by
  refine Indexed.filterMap_update fun r _ => ?_
  cases st <;> rfl

theorem automatic_insert? (h : t.insert? r = some u) :
    u.automatic = t.automatic ++ r.automatic.toList := by
  rw [automatic, Indexed.insert?_some h, List.filterMap_append, automatic]
  cases hr : r.automatic <;> simp [hr]

theorem map_automatic :
    t.automatic.map (·.2) = (t.rows.filter (·.trigger == .automatic)).map (·.runId) := by
  rw [automatic]
  induction t.rows with
  | nil => rfl
  | cons r rows ih =>
    unfold AgentRun.automatic at ih ⊢
    by_cases hr : r.trigger = .automatic
    · simp [hr, ih]
    · simp [hr, ih]

theorem eq_of_automatic (h : (t.automatic.map (·.2)).Nodup) {r' : AgentRun} (hr : r ∈ t)
    (hr' : r' ∈ t) (htrigger : r.trigger = .automatic) (htrigger' : r'.trigger = .automatic)
    (hrun : r.runId = r'.runId) : r = r' := by
  rw [map_automatic] at h
  refine List.inj_on_of_nodup_map h ?_ ?_ hrun
  · exact List.mem_filter.mpr ⟨hr, beq_iff_eq.mpr htrigger⟩
  · exact List.mem_filter.mpr ⟨hr', beq_iff_eq.mpr htrigger'⟩

end AgentRuns

/-! ## The invariant -/

def Worker.NotScanning : Worker → Prop
  | .counted _ _ _ | .scanning _ => False
  | _ => True

/-- The limits hold, and a scan that is under way has room for what it will insert. -/
structure Metered (setting : Option Int) (s : State) : Prop where
  limit : ∀ start, (happenedWithin s.runs.times start dayMs : Int) ≤ dailyLimit setting
  once : (s.runs.automatic.map (·.2)).Nodup
  counted : ∀ now since remaining, s.worker = .counted now since remaining →
    happenedSince s.runs.times (now - dayMs) + remaining ≤ dailyLimit setting
  scanning : ∀ scan, s.worker = .scanning scan →
    happenedSince s.runs.times (scan.now - dayMs) + (scan.remaining - scan.queued) ≤
      dailyLimit setting
  /-- The jobs ahead have no automatic run yet but for those of this scan. -/
  fresh : ∀ scan, s.worker = .scanning scan → ∀ j ∈ scan.todo, j.runId ∉ scan.seen →
    j.runId ∉ s.runs.automatic.map (·.2)

namespace Metered

variable {setting : Option Int} {s s' : State}

theorem init (clock : Millis) : Metered setting (init clock) where
  limit start := by
    have hzero : happenedWithin (FixAgent.init clock).runs.times start dayMs = 0 := rfl
    rw [hzero, dailyLimit]
    exact le_max_of_le_left (by decide)
  once := List.nodup_nil
  counted _ _ _ h := by cases h
  scanning _ h := by cases h
  fresh _ h := by cases h

theorem elsewhere (hs : Metered setting s) (hruns : s'.runs.automatic = s.runs.automatic)
    (hworker : s'.worker = s.worker ∨ s'.worker.NotScanning) : Metered setting s' := by
  have htimes : s'.runs.times = s.runs.times := by rw [AgentRuns.times, hruns, AgentRuns.times]
  have hsame : ∀ {w : Worker}, s'.worker = w → ¬s'.worker.NotScanning → s.worker = w :=
    fun h hscan => (hworker.resolve_right hscan) ▸ h
  refine ⟨?_, ?_, ?_, ?_, ?_⟩
  · rw [htimes]
    exact hs.limit
  · rw [hruns]
    exact hs.once
  · intro now since remaining h
    rw [htimes]
    exact hs.counted now since remaining (hsame h (by simp [h, Worker.NotScanning]))
  · intro scan h
    rw [htimes]
    exact hs.scanning scan (hsame h (by simp [h, Worker.NotScanning]))
  · intro scan h
    rw [hruns]
    exact hs.fresh scan (hsame h (by simp [h, Worker.NotScanning]))

theorem scan (hs : Metered setting s) (config : AgentConfig) :
    Metered setting (s.scan setting config) := by
  simp only [State.scan]
  split_ifs
  · exact hs
  · refine ⟨hs.limit, hs.once, ?_, fun _ h => (by cases h), fun _ h => (by cases h)⟩
    rintro _ _ _ ⟨⟩
    rw [AgentRuns.usedSince_eq, add_sub_cancel]
  · exact hs

theorem mem_candidates {ci : List CiJob} {t : AgentRuns} {since : Millis} {j : CiJob}
    (h : j ∈ candidates ci t since) : ∀ r ∈ t, r.runId ≠ j.runId := by
  have hfilter := (List.mem_insertionSort _).mp (List.mem_of_mem_take h)
  simp only [List.mem_filter, Bool.and_eq_true, List.all_eq_true, bne_iff_ne] at hfilter
  exact hfilter.2.2

theorem scanSelect (hs : Metered setting s) {ci : List CiJob} {now since : Millis} {remaining : Int}
    (hcounted : s.worker = .counted now since remaining) :
    Metered setting
      { s with worker := .scanning { now, remaining, todo := candidates ci s.runs since } } := by
  refine ⟨hs.limit, hs.once, fun _ _ _ h => (by cases h), ?_, ?_⟩
  · have hroom := hs.counted now since remaining hcounted
    simpa using hroom
  · rintro _ ⟨⟩ j hj - hmem
    simp only [AgentRuns.automatic, List.mem_map, List.mem_filterMap] at hmem
    obtain ⟨a, ⟨r, hr, ha⟩, hrun⟩ := hmem
    obtain ⟨-, ⟨⟩⟩ := Option.ite_none_right_eq_some.mp ha
    exact mem_candidates hj r hr hrun

theorem inserts (hs : Metered setting s) {scan : Scan} {id : RunId} {j : CiJob} {todo : List CiJob}
    {runs : AgentRuns} (hscanning : s.worker = .scanning scan) (hj : j ∈ scan.todo)
    (hseen : j.runId ∉ scan.seen) (hroom : scan.queued < scan.remaining)
    (hinsert : s.runs.insert? (automaticRun id j scan.now) = some runs)
    (hfresh : ∀ j' ∈ todo, j'.runId ∉ scan.seen → j'.runId ∉ s.runs.automatic.map (·.2)) :
    Metered setting { s with
      runs
      worker := .scanning
        { scan with todo, seen := j.runId :: scan.seen, queued := scan.queued + 1 } } := by
  have hauto : runs.automatic = s.runs.automatic ++ [(scan.now, j.runId)] :=
    AgentRuns.automatic_insert? hinsert
  have htimes : runs.times = s.runs.times ++ [scan.now] := by
    rw [AgentRuns.times, hauto, List.map_append]
    rfl
  have hused := hs.scanning scan hscanning
  refine ⟨fun start => ?_, ?_, fun _ _ _ h => (by cases h), ?_, ?_⟩
  · have hlimit : ∀ a, happenedWithin s.runs.times a dayMs ≤ (dailyLimit setting).toNat := by
      intro a
      have hbefore := hs.limit a
      omega
    have hsince : happenedSince s.runs.times (scan.now - dayMs) < (dailyLimit setting).toNat := by
      omega
    have hnext := happenedWithin_concat hlimit hsince start
    rw [htimes]
    omega
  · rw [hauto, List.map_append, List.nodup_append]
    refine ⟨hs.once, List.nodup_singleton _, ?_⟩
    rintro _ ha _ hb rfl
    cases List.mem_singleton.mp hb
    exact hs.fresh scan hscanning j hj hseen ha
  · rintro _ ⟨⟩
    have hday : scan.now - dayMs ≤ scan.now := sub_le_self _ (by decide)
    rw [htimes, happenedSince_concat, if_pos hday]
    push_cast
    omega
  · rintro _ ⟨⟩ j' hj' hseen'
    rw [List.mem_cons, not_or] at hseen'
    rw [hauto, List.map_append, List.mem_append, not_or]
    exact ⟨hfresh j' hj' hseen'.2, by simpa using hseen'.1⟩

theorem scanNext (hs : Metered setting s) {scan : Scan} {id : RunId} {ok : Bool}
    (hscanning : s.worker = .scanning scan) : Metered setting (s.scanNext scan id ok) := by
  have hroom := hs.scanning scan hscanning
  have hfresh := hs.fresh scan hscanning
  unfold State.scanNext
  split
  · exact hs.elsewhere rfl (.inr trivial)
  next j todo htodo =>
  rw [htodo] at hfresh
  -- Jobs that are passed over leave the room as it is.
  have hpass : Metered setting
      { s with worker := .scanning { scan with todo, seen := j.runId :: scan.seen } } := by
    refine ⟨hs.limit, hs.once, fun _ _ _ h => (by cases h), ?_, ?_⟩
    · rintro _ ⟨⟩
      exact hroom
    · rintro _ ⟨⟩ j' hj' hseen
      exact hfresh j' (List.mem_cons_of_mem _ hj') fun h => hseen (List.mem_cons_of_mem _ h)
  split_ifs with hfull hskip
  · exact hs.elsewhere rfl (.inr trivial)
  · exact hpass
  · split
    · next runs hinsert =>
      exact hs.inserts hscanning (by simp [htodo]) (fun h => hskip (.inl h)) (not_le.mp hfull)
        hinsert fun j' hj' => hfresh j' (List.mem_cons_of_mem _ hj')
    · exact hpass
  · exact hs.elsewhere rfl (.inr trivial)

theorem step (hs : Metered setting s) {a : Action} (h : (machine setting).step s a = some s') :
    Metered setting s' := by
  cases a with
  | tick now =>
    obtain ⟨-, ⟨⟩⟩ := Option.ite_none_right_eq_some.mp h
    exact hs.elsewhere rfl (.inl rfl)
  | startRun i jobId runId =>
    cases h
    unfold State.startRun
    split
    · next runs hinsert =>
      have hauto : AgentRuns.automatic runs = s.runs.automatic ++ [] :=
        AgentRuns.automatic_insert? hinsert
      exact hs.elsewhere (hauto.trans (List.append_nil _)) (.inl rfl)
    · exact hs
  | cancel i =>
    cases h
    exact hs.elsewhere AgentRuns.automatic_run (.inl rfl)
  | requestCancel i =>
    obtain ⟨-, ⟨⟩⟩ := Option.ite_none_right_eq_some.mp h
    exact hs.elsewhere AgentRuns.automatic_run (.inl rfl)
  | cancelReturn i ok =>
    obtain ⟨-, ⟨⟩⟩ := Option.ite_none_right_eq_some.mp h
    exact hs.elsewhere rfl (.inl rfl)
  | boot =>
    obtain ⟨-, ⟨⟩⟩ := Option.ite_none_right_eq_some.mp h
    exact hs.elsewhere rfl (.inr trivial)
  | crash =>
    cases h
    exact hs.elsewhere rfl (.inr trivial)
  | recoverSelect =>
    obtain ⟨-, ⟨⟩⟩ := Option.ite_none_right_eq_some.mp h
    exact hs.elsewhere rfl (.inr trivial)
  | recoverNext ok =>
    simp only [machine] at h
    split at h <;> cases h
    unfold State.recoverNext
    split
    · exact hs.elsewhere rfl (.inr trivial)
    · split
      · exact hs.elsewhere AgentRuns.automatic_run (.inr trivial)
      · exact hs.elsewhere rfl (.inr trivial)
  | scan config =>
    obtain ⟨-, ⟨⟩⟩ := Option.ite_none_right_eq_some.mp h
    exact hs.scan config
  | scanSelect ci =>
    simp only [machine] at h
    split at h <;> cases h
    next hcounted => exact hs.scanSelect hcounted
  | scanNext i ok =>
    simp only [machine] at h
    split at h <;> cases h
    next hscanning => exact hs.scanNext hscanning
  | claimSelect =>
    obtain ⟨-, ⟨⟩⟩ := Option.ite_none_right_eq_some.mp h
    cases s.runs.nextQueued s.clock with
    | none => exact hs
    | some i => exact hs.elsewhere rfl (.inr trivial)
  | claim =>
    simp only [machine] at h
    split at h <;> cases h
    refine hs.elsewhere AgentRuns.automatic_run (.inr ?_)
    unfold State.claim
    split <;> trivial
  | execute answer =>
    simp only [machine] at h
    split at h
    · obtain ⟨move, -, rfl⟩ := Option.map_eq_some_iff.mp h
      refine hs.elsewhere ?_ (.inr ?_)
      · cases move.statement with
        | none => rfl
        | some st => exact AgentRuns.automatic_run
      · cases move.next <;> trivial
    · cases h

end Metered

/-- **Automatic fixes stay within their limit**, and a workflow run has one automatic run at most.
-/
theorem automatic_runs_within_limit {setting : Option Int} {clock : Millis} {as : List Action}
    {s : State} (h : (machine setting).Run (init clock) as s) :
    (∀ start, (s.runs.automaticWithin start : Int) ≤ dailyLimit setting) ∧
      ∀ r ∈ s.runs, ∀ r' ∈ s.runs, r.trigger = .automatic → r'.trigger = .automatic →
        r.runId = r'.runId → r = r' := by
  have hmetered : Metered setting s := h.inv (fun _ _ _ _ hstep hs => hs.step hstep) (.init clock)
  refine ⟨fun start => ?_, fun r hr r' hr' => AgentRuns.eq_of_automatic hmetered.once hr hr'⟩
  rw [AgentRuns.automaticWithin_eq]
  exact hmetered.limit start

namespace Sample

def failedJob (id : JobId) (runId : WorkflowRunId) : CiJob where
  id := id
  runId := runId
  conclusion := some "failure"
  completedAt := some 0
  updatedAt := 0
  headBranch := some "main"
  archived := false
  suspended := false
  permissions := [("contents", "write"), ("pull_requests", "write")]

/-- A scan with a limit of one finds two jobs of one workflow run and one of another. -/
def scanned : List Action :=
  [.boot, .recoverSelect, .recoverNext true, .scan ⟨.automatic, true, some 0⟩,
    .scanSelect [failedJob 1 10, failedJob 2 10, failedJob 3 11], .scanNext 100 true,
    .scanNext 101 true]

end Sample

/-- A limit of one leaves one run of three failed jobs. -/
theorem one_of_three_jobs_queued : ∃ s, (machine (some 1)).Run (init 0) Sample.scanned s ∧
    s.runs.rows.map (·.jobId) = [1] ∧
    (∀ start, (s.runs.automaticWithin start : Int) ≤ dailyLimit (some 1)) ∧
      ∀ r ∈ s.runs, ∀ r' ∈ s.runs, r.trigger = .automatic → r'.trigger = .automatic →
        r.runId = r'.runId → r = r' := by
  have hexec : ((machine (some 1)).exec (init 0) Sample.scanned).any fun s =>
      s.runs.rows.map (·.jobId) == [1] := by decide +kernel
  obtain ⟨s, hs, hrows⟩ := (Option.any_eq_true _ _).mp hexec
  have hs := Machine.run_iff_exec.mpr hs
  exact ⟨s, hs, eq_of_beq hrows, automatic_runs_within_limit hs⟩

end Gridops.FixAgent
