import Gridops.FixAgent.Automatic

/-!
# When a scan queues a run

`queue_automatic_runs` reads the first fifty failed jobs that qualify and only then passes over
those whose installation grants too little. So a job that could be fixed is queued, or another one
is, exactly if fewer than fifty qualifying jobs come before one that may be fixed.
-/

namespace Gridops.FixAgent

open Lib (Machine)

/-! ## The first jobs in an order -/

/-- In a list in strict order, the first ones are those with few before them. -/
theorem mem_take_iff {α : Type} (lt : α → α → Bool) (hasymm : ∀ a b, lt a b → lt b a = false)
    {l : List α} (hsorted : l.Pairwise (lt · ·)) {n : ℕ} {x : α} :
    x ∈ l.take n ↔ x ∈ l ∧ l.countP (lt · x) < n := by
  induction l generalizing n with
  | nil => simp
  | cons a l ih =>
    obtain ⟨hfirst, hsorted⟩ := List.pairwise_cons.mp hsorted
    cases n with
    | zero => simp
    | succ n =>
      rw [List.take_succ_cons, List.mem_cons, ih hsorted, List.mem_cons, List.countP_cons]
      have hself : lt a a = false := by
        cases h : lt a a
        · rfl
        · exact h ▸ hasymm a a h
      have hzero : l.countP (lt · a) = 0 :=
        List.countP_eq_zero.mpr fun y hy => by simp [hasymm a y (hfirst y hy)]
      constructor
      · rintro (rfl | ⟨hx, hcount⟩)
        · exact ⟨.inl rfl, by simp [hself, hzero]⟩
        · exact ⟨.inr hx, by simpa [hfirst x hx] using hcount⟩
      · rintro ⟨rfl | hx, hcount⟩
        · exact .inl rfl
        · exact .inr ⟨hx, by simpa [hfirst x hx] using hcount⟩

def CiJob.qualifies (t : AgentRuns) (since : Millis) (j : CiJob) : Bool :=
  j.conclusion == some "failure" && since ≤ j.endedAt && !j.archived && !j.suspended &&
    j.headBranch.all (!ownBranch ·) && t.rows.all (·.runId != j.runId)

/-- `ORDER BY COALESCE(job.completed_at,job.updated_at),job.id`. -/
def CiJob.place (j : CiJob) : Millis ×ₗ JobId := toLex (j.endedAt, j.id)

/-- A job has one row, the jobs of a workflow run one installation, and a fix run is one of its
job's workflow run. -/
structure Joined (ci : List CiJob) (t : AgentRuns) : Prop where
  ids : (ci.map (·.id)).Nodup
  permissions : ∀ i ∈ ci, ∀ j ∈ ci, i.runId = j.runId → i.permissions = j.permissions
  runs : ∀ r ∈ t, ∀ j ∈ ci, r.jobId = j.id → r.runId = j.runId

theorem mem_candidates_iff {ci : List CiJob} {t : AgentRuns} {since : Millis} {j : CiJob}
    (hids : (ci.map (·.id)).Nodup) : j ∈ candidates ci t since ↔
      j ∈ ci ∧ j.qualifies t since ∧
        ci.countP (fun i => i.qualifies t since && decide (i.place < j.place)) < 50 := by
  let le (a b : CiJob) : Prop := a.endedAt < b.endedAt ∨ (a.endedAt = b.endedAt ∧ a.id ≤ b.id)
  have hle : ∀ a b, le a b ↔ a.place ≤ b.place := fun a b => by
    simp only [CiJob.place, Prod.Lex.toLex_le_toLex, le]
  have : Std.Total le := ⟨fun a b => by simpa only [hle] using le_total a.place b.place⟩
  have : IsTrans CiJob le := ⟨fun a b c => by simpa only [hle] using le_trans⟩
  have hperm := List.perm_insertionSort le (ci.filter (·.qualifies t since))
  have hnodup : ((ci.filter (·.qualifies t since)).map (·.id)).Nodup :=
    hids.sublist (List.filter_sublist.map _)
  have hne := List.pairwise_map.mp ((hperm.map (·.id)).nodup_iff.mpr hnodup)
  have hsorted := (List.pairwise_insertionSort le (ci.filter (·.qualifies t since))).and hne
  have htake := mem_take_iff (x := j) (n := 50) (fun a b => decide (a.place < b.place))
    (fun a b h => by simpa using le_of_lt (of_decide_eq_true h))
    (hsorted.imp fun {a b} ⟨h, hid⟩ => decide_eq_true (lt_of_le_of_ne ((hle a b).mp h)
      fun heq => hid (congrArg Prod.snd (toLex.injective heq))))
  rw [hperm.countP_eq, List.countP_filter, hperm.mem_iff, List.mem_filter, and_assoc] at htake
  simp only [Bool.and_comm (CiJob.qualifies t since _)]
  exact htake

/-! ## The loop -/

variable {setting : Option Int} {s : State} {scan : Scan} {ids : ℕ → RunId}

def turns (ids : ℕ → RunId) (n : ℕ) : List Action :=
  (List.range n).map fun k => .scanNext (ids k) true

theorem turns_succ (n : ℕ) :
    turns ids (n + 1) = .scanNext (ids 0) true :: turns (fun k => ids (k + 1)) n := by
  simp [turns, List.range_succ_eq_map]

theorem exec_turns_succ (h : s.worker = .scanning scan) (n : ℕ) :
    (machine setting).exec s (turns ids (n + 1)) =
      (machine setting).exec (s.scanNext scan (ids 0) true) (turns (fun k => ids (k + 1)) n) := by
  simp [turns_succ, Machine.exec, machine, h]

/-- Before the loop has queued a run: there is room, and it has seen no workflow run that it may
fix. -/
structure Unqueued (s : State) (scan : Scan) (ids : ℕ → RunId) : Prop where
  room : scan.queued < scan.remaining
  fresh : ∀ k, ∀ r ∈ s.runs, r.id ≠ ids k
  jobs : ∀ r ∈ s.runs, ∀ j ∈ scan.todo, r.jobId ≠ j.id
  permissions : ∀ i ∈ scan.todo, ∀ j ∈ scan.todo, i.runId = j.runId → i.permissions = j.permissions
  seen : ∀ j ∈ scan.todo, j.runId ∈ scan.seen → missingPermissions j.permissions ≠ []

theorem scanNext_cases (s : State) (ids : ℕ → RunId) {j : CiJob} {todo : List CiJob}
    (htodo : scan.todo = j :: todo) :
    (scan.remaining ≤ scan.queued ∧ s.scanNext scan (ids 0) true = { s with worker := .idle }) ∨
      ((Unqueued s scan ids → missingPermissions j.permissions ≠ []) ∧
        s.scanNext scan (ids 0) true =
          { s with worker := .scanning { scan with todo, seen := j.runId :: scan.seen } }) ∨
      missingPermissions j.permissions = [] ∧ ∃ runs scan',
        s.scanNext scan (ids 0) true = { s with runs, worker := .scanning scan' } ∧
          scan'.todo = todo ∧ s.runs.rows.length < runs.rows.length := by
  have hj : j ∈ scan.todo := htodo ▸ List.mem_cons_self
  simp only [State.scanNext, htodo]
  split_ifs with hfull hskip
  · exact .inl ⟨hfull, rfl⟩
  · exact .inr (.inl ⟨fun h => hskip.elim (h.seen j hj) id, rfl⟩)
  · push Not at hskip
    split
    · next runs hinsert =>
      exact .inr (.inr ⟨hskip.2, runs, _, rfl, rfl, by simp [Lib.Indexed.insert?_some hinsert]⟩)
    · next hinsert =>
      refine .inr (.inl ⟨fun h => ?_, rfl⟩)
      obtain ⟨x, hx, hid | hid⟩ := Lib.Indexed.insert?_none hinsert
      · exact absurd hid (h.jobs x hx j hj)
      · exact absurd hid (h.fresh 0 x hx)

/-- **The loop** ends and takes no run away, and it queues one exactly if it may fix one of its
jobs. -/
theorem exists_drained (setting : Option Int) (todo : List CiJob) :
    ∀ (s : State) {scan : Scan} (ids : ℕ → RunId), s.worker = .scanning scan →
      scan.todo = todo → ∃ n t,
      (machine setting).exec s (turns ids n) = some t ∧ t.worker = .idle ∧
        s.runs.rows.length ≤ t.runs.rows.length ∧ (Unqueued s scan ids →
          (s.runs.rows.length < t.runs.rows.length ↔
            ∃ j ∈ todo, missingPermissions j.permissions = [])) := by
  induction todo with
  | nil =>
    intro s scan ids hscanning htodo
    refine ⟨1, { s with worker := .idle }, ?_, rfl, le_rfl, by simp⟩
    rw [exec_turns_succ hscanning, State.scanNext, htodo]
    rfl
  | cons j todo ih =>
    intro s scan ids hscanning htodo
    rcases scanNext_cases s ids htodo with ⟨hfull, hturn⟩ | ⟨hmissing, hturn⟩ |
      ⟨hmay, runs, scan', hturn, htodo', hlt⟩
    · exact ⟨1, _, exec_turns_succ hscanning 0, by rw [hturn], by rw [hturn],
        fun h => absurd hfull h.room.not_ge⟩
    · obtain ⟨n, t, hexec, hidle, hle, hiff⟩ := ih (s.scanNext scan (ids 0) true)
        (fun k => ids (k + 1)) (by rw [hturn]) rfl
      rw [hturn] at hle hiff
      refine ⟨n + 1, t, (exec_turns_succ hscanning n).trans hexec, hidle, hle, fun h => ?_⟩
      have hmem : ∀ i ∈ todo, i ∈ scan.todo := fun i hi => htodo ▸ List.mem_cons_of_mem _ hi
      refine (hiff ⟨h.room, fun k => h.fresh _, fun r hr i hi => h.jobs r hr i (hmem i hi),
        fun i hi i' hi' => h.permissions i (hmem i hi) i' (hmem i' hi'),
        fun i hi hseen => ?_⟩).trans (by simp [hmissing h])
      rcases List.mem_cons.mp hseen with hrun | hseen
      · rw [h.permissions i (hmem i hi) j (htodo ▸ List.mem_cons_self) hrun]
        exact hmissing h
      · exact h.seen i (hmem i hi) hseen
    · obtain ⟨n, t, hexec, hidle, hle, -⟩ := ih (s.scanNext scan (ids 0) true)
        (fun k => ids (k + 1)) (by rw [hturn]) htodo'
      rw [hturn] at hle
      have hgrown := hlt.trans_le hle
      exact ⟨n + 1, t, (exec_turns_succ hscanning n).trans hexec, hidle, hgrown.le,
        fun _ => iff_of_true hgrown ⟨j, List.mem_cons_self, hmay⟩⟩

/-- **When automatic mode makes progress**: exactly if a job that qualifies and may be fixed has
fewer than fifty qualifying ones before it. -/
theorem automatic_progress_iff (setting : Option Int) (config : AgentConfig) (ci : List CiJob)
    (ids : ℕ → RunId) (hidle : s.worker = .idle) (hmode : config.triggerMode = .automatic)
    (hconnected : config.connected = true)
    (hbudget : usedSince s.runs (s.clock - dayMs) < dailyLimit setting) (hci : Joined ci s.runs)
    (hfresh : ∀ k, ∀ r ∈ s.runs, r.id ≠ ids k) :
    let since := max (config.automaticSince.getD s.clock) (s.clock - automaticWindowMs)
    ∃ n t, (machine setting).exec s (.scan config :: .scanSelect ci :: turns ids n) = some t ∧
      t.worker = .idle ∧ (s.runs.rows.length < t.runs.rows.length ↔
        ∃ j ∈ ci, j.qualifies s.runs since ∧ missingPermissions j.permissions = [] ∧
          ci.countP (fun i => i.qualifies s.runs since && decide (i.place < j.place)) < 50) := by
  intro since
  have hmem : ∀ j ∈ candidates ci s.runs since, j ∈ ci := fun j hj =>
    ((mem_candidates_iff hci.ids).mp hj).1
  obtain ⟨n, t, hexec, hdone, -, hiff⟩ := exists_drained setting (candidates ci s.runs since)
    { s with worker := .scanning
               { now := s.clock, remaining := _, todo := candidates ci s.runs since } } ids rfl rfl
  refine ⟨n, t, ?_, hdone, (hiff ⟨sub_pos.mpr hbudget, hfresh, fun r hr j hj hid => ?_,
    fun i hi j hj => hci.permissions i (hmem i hi) j (hmem j hj), by simp⟩).trans ?_⟩
  · simpa [Machine.exec, machine, hidle, State.scan, hmode, hconnected, not_le.mpr hbudget]
      using hexec
  · exact Metered.mem_candidates hj r hr (hci.runs r hr j (hmem j hj) hid)
  · simp only [mem_candidates_iff hci.ids, and_assoc]
    exact exists_congr fun j => and_congr_right fun _ => and_congr_right fun _ => and_comm

namespace Sample

def waiting : State := { init 0 with worker := .idle }

def automaticConfig : AgentConfig := ⟨.automatic, true, some 0⟩

def crowd : List CiJob :=
  (List.range 50).map (fun k => { failedJob k (100 + k) with permissions := [] }) ++
    [failedJob 50 200]

end Sample

theorem automatic_progress_iff_one : ∃ n t, (machine none).exec Sample.waiting
    (.scan Sample.automaticConfig :: .scanSelect [Sample.failedJob 1 10] :: turns id n) = some t ∧
      t.worker = .idle ∧ 0 < t.runs.rows.length := by
  obtain ⟨n, t, hexec, hidle, hiff⟩ := automatic_progress_iff (s := Sample.waiting) none
    Sample.automaticConfig [Sample.failedJob 1 10] id rfl rfl rfl (by decide)
    ⟨by decide, by simp, by simp [Sample.waiting, init]⟩
    (by simp [Sample.waiting, init])
  exact ⟨n, t, hexec, hidle, hiff.mpr ⟨_, List.mem_singleton_self _, by decide +kernel⟩⟩

/-- **Fifty jobs that may not be fixed hide one that may.** -/
theorem automatic_mode_starved : ∃ j ∈ Sample.crowd, j.qualifies Sample.waiting.runs 0 = true ∧
    missingPermissions j.permissions = [] ∧ ∃ t, (machine none).exec Sample.waiting
      (.scan Sample.automaticConfig :: .scanSelect Sample.crowd :: turns id 51) = some t ∧
        t.worker = .idle ∧ t.runs.rows = [] := by
  have hexec : ((machine none).exec Sample.waiting (.scan Sample.automaticConfig ::
      .scanSelect Sample.crowd :: turns id 51)).any fun t =>
        t.worker == .idle && t.runs.rows == [] := by decide +kernel
  obtain ⟨t, ht, hdone⟩ := (Option.any_eq_true _ _).mp hexec
  obtain ⟨hidle, hnone⟩ := Bool.and_eq_true_iff.mp hdone
  exact ⟨Sample.failedJob 50 200, by simp [Sample.crowd], by decide +kernel, by decide +kernel, t,
    ht, eq_of_beq hidle, eq_of_beq hnone⟩

end Gridops.FixAgent
