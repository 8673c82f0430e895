import Gridops.HostAgent.Logs

/-!
# What arrives of the agent's log

The control plane recognises a batch that it has stored by one line, the newest, and by its look. So
the log arrives exactly once as long as that line is still there and no other line looks the same.
The count of dropped lines is not recognised at all, and a batch on its way when the session ends is
neither stored nor put back; `Permitted` says which steps these things exclude.

`places` lists where the push of a line stands, and most steps only permute it.
-/

namespace Gridops.HostAgent

open Gridops.Lib Gridops.Fleet

namespace LogShipping

variable (s : LogShipping)

def onTheWay : List PushedLine := (s.sending.elim [] fun p => p.1.lines) ++ s.buffer.lines

def pending : List ℕ :=
  (match s.sending with
    | some (batch, false) => batch.dropped
    | _ => []) ++ s.buffer.dropped

/-- Where pushes stand that are not in the rows of lines: counted, to be counted, on the way. -/
def places : List ℕ := countedSeqs s.history ++ s.pending ++ s.onTheWay.map PushedLine.seq

structure Exact : Prop where
  /-- No line is stored twice, and lines are stored in the order of their pushes. -/
  ordered : (lineSeqs s.history).Pairwise (· < ·)
  /-- A line that is neither stored nor on its way was counted, or the cap has rejected it. -/
  accounted : ∀ n < s.pushed.length, n ∈ lineSeqs s.history ∨ n ∈ s.onTheWay.map PushedLine.seq ∨
    n ∈ s.pending ∨ n ∈ countedSeqs s.history ∨ n ∈ s.rejected
  countedOnce : (countedSeqs s.history ++ s.pending).Nodup

end LogShipping

/-- The last line of the batch that looks like the newest stored line is that line. -/
def NoLookAlike (s : LogShipping) (batch : AgentLogBatch) : Prop :=
  ∀ newest ∈ newestLine s.rows,
    ∀ p ∈ batch.lines.reverse.find? (fun p => p.line.clean == newest.line),
      newest.origin = .line p.seq

/-- A batch with a stored line finds the line that was stored last among the rows. -/
def Remembered (s : LogShipping) (batch : AgentLogBatch) : Prop :=
  (∃ p ∈ batch.lines, p.seq ∈ lineSeqs s.history) →
    (newestLine s.rows).map LogRow.origin = (lineSeqs s.history).getLast?.map .line

def NoticeFits (s : LogShipping) (batch : AgentLogBatch) (now : Int) : Prop :=
  batch.dropped ≠ [] → (wanted s.rows batch now).length ≤ (roomLeft s.rows now).toNat

/-- **The condition.** A stored batch with dropped lines is not sent again, a session ends with its
batch stored, and a batch's stored part is recognised. -/
def Permitted (s : LogShipping) : LogStep → Prop
  | .store now => ∀ p ∈ s.sending,
      NoLookAlike s p.1 ∧ Remembered s p.1 ∧ NoticeFits s p.1 now
  | .fail => ∀ p ∈ s.sending, p.2 = true → p.1.dropped = []
  | .abandon => ∀ p ∈ s.sending, p.2 = true
  | _ => True

/-! ## The buffer -/

def FitsBatch (lines : List PushedLine) : Prop :=
  lines.length ≤ batchLines ∧ (lines.map lineBytes).sum ≤ batchBytes ∨ lines.length ≤ 1

section Buffer

variable {lines rest : List PushedLine} {b : LogBuffer} {batch : AgentLogBatch} {used : ℕ}

theorem FitsBatch.suffix (h : FitsBatch lines) (hrest : rest <:+ lines) : FitsBatch rest := by
  obtain ⟨before, rfl⟩ := hrest
  simp only [FitsBatch, List.length_append, List.map_append, List.sum_append] at h ⊢
  omega

theorem countFitting_append (h : used + (lines.map lineBytes).sum ≤ batchBytes) :
    lines.length ≤ countFitting used (lines ++ rest) := by
  induction lines generalizing used with
  | nil => exact Nat.zero_le _
  | cons p ps ih =>
    simp only [List.map_cons, List.sum_cons] at h
    rw [List.cons_append, countFitting, if_pos (by omega)]
    exact Nat.succ_le_succ (ih (by omega))

theorem countFitting_le : countFitting used lines ≤ lines.length := by
  induction lines generalizing used with
  | nil => exact Nat.le_refl _
  | cons p ps ih =>
    unfold countFitting
    split
    · exact Nat.succ_le_succ ih
    · exact Nat.zero_le _

theorem sum_countFitting (hused : used ≤ batchBytes) :
    used + ((lines.take (countFitting used lines)).map lineBytes).sum ≤ batchBytes := by
  induction lines generalizing used with
  | nil => simpa [countFitting] using hused
  | cons p ps ih =>
    unfold countFitting
    split
    · next hfits =>
      have := ih hfits
      simp only [List.take_succ_cons, List.map_cons, List.sum_cons]
      omega
    · simpa using hused

theorem FitsBatch.le_batchCount (h : FitsBatch lines) :
    lines.length ≤ batchCount (lines ++ rest) := by
  obtain ⟨hlength, hbytes⟩ | hone := h
  · refine Nat.le_trans ?_ (Nat.le_max_left _ _)
    rw [List.take_append, List.take_of_length_le hlength]
    exact countFitting_append (by omega)
  · refine Nat.le_trans ?_ (Nat.le_max_right _ _)
    cases lines with
    | nil => exact Nat.zero_le _
    | cons p ps => simpa using hone

theorem batch_fits (b : LogBuffer) : FitsBatch b.batch.lines := by
  unfold LogBuffer.batch batchCount
  by_cases hone : countFitting 0 (b.lines.take batchLines) ≤ if b.lines = [] then 0 else 1
  · right
    rw [Nat.max_eq_right hone, List.length_take]
    split <;> omega
  · left
    have hsum : 0 + (((b.lines.take batchLines).take
        (countFitting 0 (b.lines.take batchLines))).map lineBytes).sum ≤ batchBytes :=
      sum_countFitting (Nat.zero_le batchBytes)
    have hlines : countFitting 0 (b.lines.take batchLines) ≤ batchLines :=
      Nat.le_trans countFitting_le (List.length_take_le _ _)
    rw [List.take_take, Nat.min_eq_left hlines, Nat.zero_add] at hsum
    rw [Nat.max_eq_left (Nat.le_of_lt (Nat.lt_of_not_le hone))]
    exact ⟨Nat.le_trans (List.length_take_le _ _) hlines, hsum⟩

theorem batch_append_take (b : LogBuffer) : b.batch.lines ++ b.take.lines = b.lines :=
  List.take_append_drop _ _

theorem push_cases (b : LogBuffer) (p : PushedLine) :
    b.push p = ⟨b.lines ++ [p], b.dropped⟩ ∨
      ∃ oldest rest, b.lines = oldest :: rest ∧
        b.push p = ⟨rest ++ [p], b.dropped ++ [oldest.seq]⟩ := by
  unfold LogBuffer.push
  split
  · next hfull =>
    cases hlines : b.lines with
    | nil =>
      rw [hlines] at hfull
      exact absurd hfull (by decide)
    | cons oldest rest => exact .inr ⟨oldest, rest, rfl, rfl⟩
  · exact .inl rfl

/-- What does not fit of a batch that is put back are its oldest lines. -/
theorem restore_cases (b : LogBuffer) (batch : AgentLogBatch) :
    ∃ lost kept, batch.lines = lost ++ kept ∧
      b.restore batch = ⟨kept ++ b.lines, b.dropped ++ batch.dropped ++
        (lost.map PushedLine.seq).reverse⟩ := by
  unfold LogBuffer.restore
  rw [List.foldl_reverse]
  generalize b.dropped ++ batch.dropped = dropped
  -- Once a line is lost the buffer is full, so every older one is lost as well.
  suffices h : ∀ lines : List PushedLine, ∃ lost kept, lines = lost ++ kept ∧
      lines.foldr (fun p b => LogBuffer.restoreLine b p) ⟨b.lines, dropped⟩ =
        (⟨kept ++ b.lines, dropped ++ (lost.map PushedLine.seq).reverse⟩ : LogBuffer) ∧
      (lost ≠ [] → bufferLines ≤ (kept ++ b.lines).length) by
    obtain ⟨lost, kept, hlines, hrestore, -⟩ := h batch.lines
    exact ⟨lost, kept, hlines, hrestore⟩
  intro lines
  induction lines with
  | nil => exact ⟨[], [], rfl, by simp, by simp⟩
  | cons p ps ih =>
    obtain ⟨lost, kept, hps, hrestore, hfull⟩ := ih
    rw [List.foldr_cons, hrestore, LogBuffer.restoreLine]
    split
    · next hroom =>
      exact ⟨p :: lost, kept, by rw [hps, List.cons_append], by simp, fun _ => hroom⟩
    · next hroom =>
      have hlost : lost = [] := by
        by_contra hne
        exact hroom (hfull hne)
      exact ⟨[], p :: kept, by rw [hps, hlost, List.nil_append, List.nil_append],
        by simp [hlost], by simp⟩

end Buffer

/-! ## Any order of calls -/

inductive BufferCall where
  | push (line : AgentLogLine)
  | take
  /-- Gives the last take back; after that there is nothing to give back until the next one. -/
  | restore
deriving DecidableEq

structure BufferCalls where
  pushed : ℕ := 0
  buffer : LogBuffer := ⟨[], []⟩
  taken : Option AgentLogBatch := none
  gone : List AgentLogBatch := []
deriving DecidableEq

namespace BufferCalls

def step (s : BufferCalls) : BufferCall → BufferCalls
  | .push line =>
    { s with pushed := s.pushed + 1, buffer := s.buffer.push ⟨s.pushed, line⟩ }
  | .take =>
    { s with
      buffer := s.buffer.take
      taken := some s.buffer.batch
      gone := s.taken.toList ++ s.gone }
  | .restore =>
    match s.taken with
    | none => s
    | some batch => { s with buffer := s.buffer.restore batch, taken := none }

def notRestored (s : BufferCalls) : List AgentLogBatch := s.taken.toList ++ s.gone

def waiting (s : BufferCalls) : List PushedLine :=
  (s.taken.elim [] AgentLogBatch.lines) ++ s.buffer.lines

structure Inv (s : BufferCalls) : Prop where
  balance : s.pushed = s.buffer.lines.length + s.buffer.dropped.length +
    (s.notRestored.map fun batch => batch.lines.length + batch.dropped.length).sum
  ordered : (s.waiting.map PushedLine.seq).Sublist (List.range s.pushed)
  room : s.buffer.lines.length ≤ bufferLines

variable {s : BufferCalls}

theorem length_push_le {b : LogBuffer} (h : b.lines.length ≤ bufferLines) (p : PushedLine) :
    (b.push p).lines.length ≤ bufferLines := by
  have hpos : 0 < bufferLines := by decide
  unfold LogBuffer.push
  split <;> simp only [List.length_append, List.length_tail, List.length_singleton] <;> omega

theorem length_restore_le {b : LogBuffer} (h : b.lines.length ≤ bufferLines)
    (batch : AgentLogBatch) : (b.restore batch).lines.length ≤ bufferLines := by
  refine List.foldlRecOn (motive := fun b : LogBuffer => b.lines.length ≤ bufferLines) _ _ h ?_
  intro b hroom p _
  unfold LogBuffer.restoreLine
  split
  · exact hroom
  · rw [List.length_cons]
    omega

theorem Inv.push (h : s.Inv) (line : AgentLogLine) : (s.step (.push line)).Inv := by
  have hbalance := h.balance
  have hordered : (s.waiting.map PushedLine.seq ++ [s.pushed]).Sublist
      (List.range (s.pushed + 1)) := by
    rw [List.range_succ]
    exact h.ordered.append_right _
  have hroom := length_push_le h.room ⟨s.pushed, line⟩
  rcases push_cases s.buffer ⟨s.pushed, line⟩ with hpush | ⟨oldest, rest, hlines, hpush⟩
  · refine ⟨?_, ?_, hroom⟩
    · simp only [step, notRestored, hpush, List.length_append, List.length_singleton]
        at hbalance ⊢
      omega
    · simpa [step, waiting, hpush] using hordered
  · refine ⟨?_, ?_, hroom⟩
    · simp only [step, notRestored, hpush, hlines, List.length_append, List.length_cons,
        List.length_nil] at hbalance ⊢
      omega
    · refine List.Sublist.trans ?_ hordered
      simp [step, waiting, hpush, hlines]

theorem Inv.take (h : s.Inv) : (s.step .take).Inv where
  balance := by
    have hbalance := h.balance
    have hsplit := congrArg List.length (batch_append_take s.buffer)
    have hdropped : s.buffer.batch.dropped = s.buffer.dropped := rfl
    have hempty : s.buffer.take.dropped = [] := rfl
    simp only [step, notRestored, Option.toList_some, List.singleton_append, List.map_cons,
      List.sum_cons, List.length_append, hdropped, hempty, List.length_nil] at hbalance hsplit ⊢
    omega
  ordered := by
    show ((s.buffer.batch.lines ++ s.buffer.take.lines).map PushedLine.seq).Sublist _
    rw [batch_append_take]
    exact ((List.sublist_append_right _ _).map _).trans h.ordered
  room := (List.drop_sublist _ _).length_le.trans h.room

theorem Inv.restore (h : s.Inv) : (s.step .restore).Inv := by
  rw [step]
  cases htaken : s.taken with
  | none => exact h
  | some batch =>
    have hbalance := h.balance
    have hordered := h.ordered
    obtain ⟨lost, kept, hbatch, hrestore⟩ := restore_cases s.buffer batch
    refine ⟨?_, ?_, length_restore_le h.room batch⟩
    · simp only [hrestore, notRestored, htaken, hbatch, Option.toList_none, Option.toList_some,
        List.nil_append, List.cons_append, List.map_cons, List.sum_cons, List.length_append,
        List.length_reverse, List.length_map] at hbalance ⊢
      omega
    · refine List.Sublist.trans (List.Sublist.map _ ?_) hordered
      simp only [waiting, hrestore, htaken, hbatch, Option.elim, List.nil_append]
      exact (List.sublist_append_right _ _).append_right _

/-- **The buffer's account.** Every line pushed is buffered in order, taken or counted as dropped,
within the size. -/
theorem foldl_step_spec (calls : List BufferCall) :
    let s := calls.foldl step {}
    s.pushed = s.buffer.lines.length + s.buffer.dropped.length +
        (s.notRestored.map fun batch => batch.lines.length + batch.dropped.length).sum ∧
      (s.buffer.lines.map PushedLine.seq).Pairwise (· < ·) ∧
      s.buffer.lines.length ≤ bufferLines := by
  have hinv : (calls.foldl step {}).Inv := by
    refine List.foldlRecOn calls step (by constructor <;> simp [notRestored, waiting]) ?_
    intro s h call _
    cases call with
    | push line => exact h.push line
    | take => exact h.take
    | restore => exact h.restore
  refine ⟨hinv.balance, ?_, hinv.room⟩
  exact List.pairwise_lt_range.sublist (((List.sublist_append_right _ _).map _).trans hinv.ordered)

end BufferCalls

/-! ## The order of lines -/

/-- Lines wait in the order of their pushes, those not stored after every stored one. -/
structure Queued (pushed : List AgentLogLine) (stored : List ℕ) (way : List PushedLine) :
    Prop where
  tagged : ∀ p ∈ way, pushed[p.seq]? = some p.line
  increasing : (way.map PushedLine.seq).Pairwise (· < ·)
  fresh : ∀ p ∈ way, p.seq ∉ stored → ∀ n ∈ stored, n < p.seq
  last : ∀ p ∈ way, p.seq ∈ stored → ∃ q ∈ way, stored.getLast? = some q.seq

section Queued

variable {pushed : List AgentLogLine} {stored : List ℕ} {way a b c : List PushedLine}
  {p : PushedLine}

theorem Queued.lt_length (h : Queued pushed stored way) (hp : p ∈ way) : p.seq < pushed.length :=
  (List.getElem?_eq_some_iff.mp (h.tagged p hp)).1

theorem Queued.lt (h : Queued pushed stored (a ++ b)) {q : PushedLine} (hp : p ∈ a) (hq : q ∈ b) :
    p.seq < q.seq := by
  have hincreasing := h.increasing
  rw [List.map_append, List.pairwise_append] at hincreasing
  exact hincreasing.2.2 _ (List.mem_map_of_mem hp) _ (List.mem_map_of_mem hq)

theorem le_getLast {stored : List ℕ} {m n : ℕ} (hordered : stored.Pairwise (· < ·))
    (hm : stored.getLast? = some m) (hn : n ∈ stored) : n ≤ m := by
  obtain ⟨before, rfl⟩ := List.getLast?_eq_some_iff.mp hm
  rcases List.mem_append.mp hn with hn | hn
  · exact Nat.le_of_lt ((List.pairwise_append.mp hordered).2.2 n hn m (List.mem_singleton_self m))
  · exact Nat.le_of_eq (List.mem_singleton.mp hn)

theorem Queued.drop (h : Queued pushed stored (a ++ b)) (hordered : stored.Pairwise (· < ·)) :
    Queued pushed stored b where
  tagged p hp := h.tagged p (List.mem_append_right a hp)
  increasing := by
    have hincreasing := h.increasing
    rw [List.map_append] at hincreasing
    exact (List.pairwise_append.mp hincreasing).2.1
  fresh p hp := h.fresh p (List.mem_append_right a hp)
  last p hp hstored := by
    obtain ⟨q, hq, hlast⟩ := h.last p (List.mem_append_right a hp) hstored
    rcases List.mem_append.mp hq with hq | hq
    · have hlt := h.lt hq hp
      have hle := le_getLast hordered hlast hstored
      omega
    · exact ⟨q, hq, hlast⟩

theorem Queued.remove (h : Queued pushed stored (a ++ p :: b)) (hp : p.seq ∉ stored) :
    Queued pushed stored (a ++ b) := by
  have hsub : (a ++ b).Sublist (a ++ p :: b) :=
    (List.Sublist.refl a).append (List.sublist_cons_self p b)
  refine ⟨fun q hq => h.tagged q (hsub.subset hq), h.increasing.sublist (hsub.map _),
    fun q hq => h.fresh q (hsub.subset hq), fun q hq hstored => ?_⟩
  obtain ⟨r, hr, hlast⟩ := h.last q (hsub.subset hq) hstored
  have hne : r ≠ p := by
    rintro rfl
    exact hp (List.mem_of_getLast? hlast)
  refine ⟨r, ?_, hlast⟩
  simpa [hne] using hr

theorem Queued.push (h : Queued pushed stored way) (hbounded : ∀ n ∈ stored, n < pushed.length)
    (line : AgentLogLine) :
    Queued (pushed ++ [line]) stored (way ++ [⟨pushed.length, line⟩]) where
  tagged p hp := by
    rcases List.mem_append.mp hp with hp | hp
    · rw [List.getElem?_append_left (h.lt_length hp)]
      exact h.tagged p hp
    · cases List.mem_singleton.mp hp
      exact List.getElem?_concat_length
  increasing := by
    rw [List.map_append, List.pairwise_append]
    refine ⟨h.increasing, List.pairwise_singleton _ _, fun n hn m hm => ?_⟩
    obtain ⟨p, hp, rfl⟩ := List.mem_map.mp hn
    cases List.mem_singleton.mp hm
    exact h.lt_length hp
  fresh p hp := by
    rcases List.mem_append.mp hp with hp | hp
    · exact h.fresh p hp
    · cases List.mem_singleton.mp hp
      exact fun _ => hbounded
  last p hp hstored := by
    rcases List.mem_append.mp hp with hp | hp
    · obtain ⟨q, hq, hlast⟩ := h.last p hp hstored
      exact ⟨q, List.mem_append_left _ hq, hlast⟩
    · cases List.mem_singleton.mp hp
      exact absurd (hbounded _ hstored) (Nat.lt_irrefl _)

theorem Queued.store (h : Queued pushed stored (a ++ (b ++ c))) (ha : ∀ p ∈ a, p.seq ∈ stored)
    (hbc : ∀ p ∈ b ++ c, p.seq ∉ stored) :
    Queued pushed (stored ++ b.map PushedLine.seq) (a ++ (b ++ c)) where
  tagged := h.tagged
  increasing := h.increasing
  fresh p hp hnew n hn := by
    rw [List.mem_append, not_or] at hnew
    rcases List.mem_append.mp hn with hn | hn
    · exact h.fresh p hp hnew.1 n hn
    · obtain ⟨q, hq, rfl⟩ := List.mem_map.mp hn
      have hpc : p ∈ c := by
        rcases List.mem_append.mp hp with hp | hp
        · exact absurd (ha p hp) hnew.1
        · rcases List.mem_append.mp hp with hp | hp
          · exact absurd (List.mem_map_of_mem hp) hnew.2
          · exact hp
      rw [← List.append_assoc] at h
      exact h.lt (List.mem_append_right a hq) hpc
  last p hp hstored := by
    rcases List.eq_nil_or_concat b with rfl | ⟨-, q, rfl⟩
    · rw [List.map_nil, List.append_nil] at hstored ⊢
      exact h.last p hp hstored
    · refine ⟨q, by simp, ?_⟩
      rw [List.concat_eq_append, List.map_append, ← List.append_assoc]
      exact List.getLast?_concat

theorem Queued.ordered_store (h : Queued pushed stored (a ++ (b ++ c)))
    (hordered : stored.Pairwise (· < ·)) (hbc : ∀ p ∈ b ++ c, p.seq ∉ stored) :
    (stored ++ b.map PushedLine.seq).Pairwise (· < ·) := by
  have hb : ∀ p ∈ b, p ∈ a ++ (b ++ c) := fun p hp =>
    List.mem_append_right a (List.mem_append_left c hp)
  have hincreasing := h.increasing
  rw [List.map_append, List.map_append, List.pairwise_append, List.pairwise_append] at hincreasing
  refine List.pairwise_append.mpr ⟨hordered, hincreasing.2.1.1, fun n hn m hm => ?_⟩
  obtain ⟨p, hp, rfl⟩ := List.mem_map.mp hm
  exact h.fresh p (hb p hp) (hbc p (List.mem_append_left c hp)) n hn

end Queued

/-! ## The invariant -/

structure LogShipping.Inv (s : LogShipping) : Prop where
  queued : Queued s.pushed (lineSeqs s.history) s.onTheWay
  ordered : (lineSeqs s.history).Pairwise (· < ·)
  bounded : ∀ n ∈ lineSeqs s.history, n < s.pushed.length
  rows : ∀ row ∈ s.rows, row.line.target ≠ noticeTarget → ∃ n ∈ lineSeqs s.history,
    row.origin = .line n ∧ s.pushed[n]?.map AgentLogLine.clean = some row.line
  /-- The stored lines on the way are in the batch, or will be in the next one. -/
  front : ∃ first rest, s.onTheWay = first ++ rest ∧ FitsBatch first ∧
    (∀ p ∈ rest, p.seq ∉ lineSeqs s.history) ∧ ∀ p ∈ s.sending, first = p.1.lines
  once : s.places.Nodup
  placed : ∀ n ∈ s.places, n < s.pushed.length
  accounted : ∀ n < s.pushed.length, n ∈ s.places ∨ n ∈ lineSeqs s.history ∨ n ∈ s.rejected
  delivered : ∀ p ∈ s.sending, p.2 = true → ∀ l ∈ p.1.lines,
    l.seq ∈ lineSeqs s.history ∨ l.seq ∈ s.rejected
  complete : ∀ batch ∈ s.complete, (∀ p ∈ batch.lines, p.seq ∈ lineSeqs s.history) ∧
    ∀ n ∈ batch.dropped, n ∈ countedSeqs s.history

namespace LogShipping.Inv

variable {s t : LogShipping} {batch : AgentLogBatch} {stored : Bool}

theorem exact (h : s.Inv) : s.Exact where
  ordered := h.ordered
  accounted n hn := by
    have := h.accounted n hn
    simp only [LogShipping.places, List.mem_append] at this
    tauto
  countedOnce := h.once.of_append_left

theorem sending_front (h : s.Inv) (hsending : s.sending = some (batch, stored)) :
    s.onTheWay = batch.lines ++ s.buffer.lines ∧ FitsBatch batch.lines ∧
      ∀ p ∈ s.buffer.lines, p.seq ∉ lineSeqs s.history := by
  have hway : s.onTheWay = batch.lines ++ s.buffer.lines := by
    rw [LogShipping.onTheWay, hsending]
    rfl
  obtain ⟨first, rest, hsplit, hfits, hrest, hfirst⟩ := h.front
  obtain rfl := hfirst _ hsending
  rw [hway] at hsplit
  obtain rfl := List.append_cancel_left hsplit
  exact ⟨hway, hfits, hrest⟩

theorem newest (h : s.Inv) {row : LogRow} (hrow : newestLine s.rows = some row) :
    ∃ n ∈ lineSeqs s.history, row.origin = .line n ∧
      s.pushed[n]?.map AgentLogLine.clean = some row.line := by
  refine h.rows row (List.mem_reverse.mp (List.mem_of_find?_eq_some hrow)) ?_
  simpa using List.find?_some hrow

/-- **Recognition.** What the control plane takes for new in a batch is what is not stored. -/
theorem unseen_split (h : s.Inv) (hsending : s.sending = some (batch, stored))
    (hlook : NoLookAlike s batch) (hremembered : Remembered s batch) :
    ∃ done, batch.lines = done ++ unseen s.rows batch.lines ∧
      (∀ p ∈ done, p.seq ∈ lineSeqs s.history) ∧
      ∀ p ∈ unseen s.rows batch.lines, p.seq ∉ lineSeqs s.history := by
  obtain ⟨hway, -, hbuffer⟩ := h.sending_front hsending
  have hqueued := h.queued
  rw [hway] at hqueued
  have hmem : ∀ p ∈ batch.lines, p ∈ batch.lines ++ s.buffer.lines := fun p hp =>
    List.mem_append_left _ hp
  -- A stored line in the batch is recognised.
  have hseen : ∀ p ∈ batch.lines, p.seq ∈ lineSeqs s.history → ∃ row q,
      newestLine s.rows = some row ∧ q ∈ batch.lines ∧ q.line.clean = row.line := by
    intro p hp hstored
    obtain ⟨q, hq, hlast⟩ := hqueued.last p (hmem p hp) hstored
    have hqbatch : q ∈ batch.lines := by
      rcases List.mem_append.mp hq with hq | hq
      · exact hq
      · exact absurd (List.mem_of_getLast? hlast) (hbuffer q hq)
    have hnewest := hremembered ⟨p, hp, hstored⟩
    rw [hlast, Option.map_some, Option.map_eq_some_iff] at hnewest
    obtain ⟨row, hrow, horigin⟩ := hnewest
    obtain ⟨n, -, horigin', hline⟩ := h.newest hrow
    obtain rfl : n = q.seq := by
      rw [horigin] at horigin'
      cases horigin'
      rfl
    rw [hqueued.tagged q hq] at hline
    exact ⟨row, q, hrow, hqbatch, Option.some.inj hline⟩
  unfold unseen
  split
  · next hnone =>
    refine ⟨[], rfl, by simp, fun p hp hstored => ?_⟩
    obtain ⟨row, -, hrow, -⟩ := hseen p hp hstored
    cases hnone.symm.trans hrow
  · next row hrow =>
    obtain ⟨hnone, hall⟩ | ⟨before, x, hlines, hx⟩ :=
      afterLast_spec (fun p : PushedLine => p.line.clean == row.line) batch.lines
    · rw [hall]
      refine ⟨[], rfl, by simp, fun p hp hstored => ?_⟩
      obtain ⟨row', q, hrow', hq, hline⟩ := hseen p hp hstored
      cases hrow.symm.trans hrow'
      simpa [hline] using hnone q hq
    · obtain ⟨n, hn, horigin, -⟩ := h.newest hrow
      have hxn : n = x.seq := by
        rw [hlook row hrow x hx] at horigin
        cases horigin
        rfl
      subst hxn
      have hxbatch : x ∈ batch.lines := hlines ▸ List.mem_append_right before List.mem_cons_self
      rw [hlines] at hqueued hmem
      refine ⟨before ++ [x], by rw [List.append_assoc]; exact hlines, ?_, ?_⟩
      · intro p hp
        by_contra hnew
        rcases List.mem_append.mp hp with hp | hp
        · have hlt := hqueued.fresh p (hmem p (List.mem_append_left _ hp)) hnew _ hn
          rw [List.append_assoc] at hqueued
          have := hqueued.lt hp List.mem_cons_self
          omega
        · cases List.mem_singleton.mp hp
          exact hnew hn
      · intro p hp hstored
        have hlast : (lineSeqs s.history).getLast? = some x.seq := by
          have hnewest := hremembered ⟨x, hxbatch, hn⟩
          rw [hrow, Option.map_some, horigin, eq_comm, Option.map_eq_some_iff] at hnewest
          obtain ⟨m, hm, horigin'⟩ := hnewest
          cases horigin'
          exact hm
        have hle := le_getLast h.ordered hlast hstored
        have hlt : x.seq < p.seq := by
          rw [List.append_assoc, List.cons_append, List.append_cons] at hqueued
          exact hqueued.lt (List.mem_append_right before (List.mem_singleton_self x))
            (List.mem_append_left _ hp)
        omega

/-! ## One step -/

theorem push_of (h : s.Inv) (line : AgentLogLine) {b : LogBuffer} {way first rest : List PushedLine}
    (hqueued : Queued s.pushed (lineSeqs s.history) way)
    (hway : LogShipping.onTheWay { s with pushed := s.pushed ++ [line], buffer := b } =
      way ++ [⟨s.pushed.length, line⟩])
    (hplaces : (LogShipping.places { s with pushed := s.pushed ++ [line], buffer := b }).Perm
      (s.places ++ [s.pushed.length]))
    (hsplit : way = first ++ rest) (hfits : FitsBatch first)
    (hrest : ∀ p ∈ rest, p.seq ∉ lineSeqs s.history) (hfirst : ∀ p ∈ s.sending, first = p.1.lines) :
    Inv { s with pushed := s.pushed ++ [line], buffer := b } := by
  have hlength : (s.pushed ++ [line]).length = s.pushed.length + 1 := List.length_append
  refine ⟨?_, h.ordered, ?_, ?_, ?_, ?_, ?_, ?_, h.delivered, h.complete⟩
  · rw [hway]
    exact hqueued.push h.bounded line
  · intro n hn
    rw [hlength]
    exact Nat.lt_succ_of_lt (h.bounded n hn)
  · intro row hrow htarget
    obtain ⟨n, hn, horigin, hline⟩ := h.rows row hrow htarget
    refine ⟨n, hn, horigin, ?_⟩
    rwa [List.getElem?_append_left (h.bounded n hn)]
  · refine ⟨first, rest ++ [⟨s.pushed.length, line⟩], ?_, hfits, fun p hp => ?_, hfirst⟩
    · rw [hway, hsplit, List.append_assoc]
    · rcases List.mem_append.mp hp with hp | hp
      · exact hrest p hp
      · cases List.mem_singleton.mp hp
        exact fun hstored => Nat.lt_irrefl _ (h.bounded _ hstored)
  · rw [hplaces.nodup_iff, List.nodup_append]
    refine ⟨h.once, List.nodup_singleton _, fun n hn m hm => ?_⟩
    cases List.mem_singleton.mp hm
    exact Nat.ne_of_lt (h.placed n hn)
  · intro n hn
    rw [hlength]
    rcases List.mem_append.mp (hplaces.mem_iff.mp hn) with hn | hn
    · exact Nat.lt_succ_of_lt (h.placed n hn)
    · rw [List.mem_singleton.mp hn]
      exact Nat.lt_succ_self _
  · intro n hn
    rw [hplaces.mem_iff, List.mem_append]
    rw [hlength] at hn
    rcases Nat.lt_succ_iff_lt_or_eq.mp hn with hn | rfl
    · rcases h.accounted n hn with hplace | hdone
      · exact .inl (.inl hplace)
      · exact .inr hdone
    · exact .inl (.inr (List.mem_singleton_self _))

theorem push (h : s.Inv) (line : AgentLogLine) : Inv { s with
    pushed := s.pushed ++ [line]
    buffer := s.buffer.push ⟨s.pushed.length, line⟩ } := by
  obtain hroom | ⟨oldest, rest, hlines, hfull⟩ := push_cases s.buffer ⟨s.pushed.length, line⟩
  · rw [hroom]
    obtain ⟨first, rest, hsplit, hfits, hrest, hfirst⟩ := h.front
    refine h.push_of line h.queued ?_ ?_ hsplit hfits hrest hfirst
    · simp [LogShipping.onTheWay]
    · simp only [LogShipping.places, LogShipping.onTheWay, List.map_append, List.append_assoc]
      exact List.Perm.refl _
  · rw [hfull]
    have hplaces : (LogShipping.places { s with
        buffer := ⟨rest ++ [⟨s.pushed.length, line⟩], s.buffer.dropped ++ [oldest.seq]⟩ }).Perm
        (s.places ++ [s.pushed.length]) := by
      rw [← Multiset.coe_eq_coe]
      simp only [LogShipping.places, LogShipping.onTheWay, LogShipping.pending, hlines,
        List.map_append, List.map_cons, ← Multiset.coe_add, ← Multiset.cons_coe,
          ← Multiset.singleton_add]
      abel
    obtain hsending | ⟨⟨batch, stored⟩, hsending⟩ := Option.eq_none_or_eq_some s.sending
    · have hway : s.onTheWay = [oldest] ++ rest := by
        rw [LogShipping.onTheWay, hsending, hlines]
        rfl
      have hqueued : Queued s.pushed (lineSeqs s.history) rest :=
        (hway ▸ h.queued).drop h.ordered
      have hwayNext : LogShipping.onTheWay { s with
          buffer := ⟨rest ++ [⟨s.pushed.length, line⟩], s.buffer.dropped ++ [oldest.seq]⟩ } =
          rest ++ [⟨s.pushed.length, line⟩] := by
        rw [hsending]
        rfl
      have hidle : ∀ (first : List PushedLine), ∀ p ∈ s.sending, first = p.1.lines := by
        intro first p hp
        cases hsending.symm.trans hp
      obtain ⟨first, behind, hsplit, hfits, hbehind, -⟩ := h.front
      rw [hway] at hsplit
      cases first with
      | nil =>
        rw [List.nil_append] at hsplit
        refine h.push_of line hqueued hwayNext hplaces rfl hfits (fun p hp => ?_) (hidle [])
        exact hbehind p (hsplit ▸ List.mem_cons_of_mem _ hp)
      | cons f fs =>
        obtain ⟨-, hsplit⟩ := List.cons.inj hsplit
        exact h.push_of line hqueued hwayNext hplaces hsplit
          (hfits.suffix (List.suffix_cons f fs)) hbehind (hidle fs)
    · obtain ⟨hway, hfits, hbuffer⟩ := h.sending_front hsending
      rw [hlines] at hway hbuffer
      refine h.push_of line ((hway ▸ h.queued).remove (hbuffer _ List.mem_cons_self)) ?_ hplaces
        rfl hfits (fun p hp => hbuffer p (List.mem_cons_of_mem _ hp)) ?_
      · rw [hsending, List.append_assoc]
        rfl
      · intro p hp
        cases hsending.symm.trans hp
        rfl

theorem ship (h : s.Inv) (hidle : s.sending = none) : Inv { s with
    buffer := s.buffer.take
    sending := some (s.buffer.batch, false) } := by
  have hway : s.onTheWay = s.buffer.lines := by
    rw [LogShipping.onTheWay, hidle]
    rfl
  have hsame : LogShipping.onTheWay { s with
      buffer := s.buffer.take, sending := some (s.buffer.batch, false) } = s.onTheWay :=
    (batch_append_take s.buffer).trans hway.symm
  have hplaces : LogShipping.places { s with
      buffer := s.buffer.take, sending := some (s.buffer.batch, false) } = s.places := by
    rw [LogShipping.places, hsame, LogShipping.places, LogShipping.pending, LogShipping.pending,
      hidle]
    simp [LogBuffer.take, LogBuffer.batch]
  refine ⟨?_, h.ordered, h.bounded, h.rows, ?_, ?_, ?_, ?_, ?_, h.complete⟩
  · rw [hsame]
    exact h.queued
  · obtain ⟨first, rest, hsplit, hfits, hrest, -⟩ := h.front
    rw [hway] at hsplit
    have hcount : first.length ≤ batchCount (first ++ rest) := hfits.le_batchCount
    refine ⟨s.buffer.batch.lines, s.buffer.take.lines, rfl, batch_fits _, fun p hp => ?_, ?_⟩
    · -- What waits behind the new batch waits behind `first`.
      rw [LogBuffer.take, hsplit, List.drop_append, List.drop_of_length_le hcount] at hp
      exact hrest p (List.mem_of_mem_drop hp)
    · rintro p ⟨⟩
      rfl
  · rw [hplaces]
    exact h.once
  · rw [hplaces]
    exact h.placed
  · rw [hplaces]
    exact h.accounted
  · rintro p ⟨⟩ hstored
    cases hstored

theorem settle (h : s.Inv) (hsending : s.sending = some (batch, true)) :
    Inv { s with sending := none } := by
  obtain ⟨hway, -, hbuffer⟩ := h.sending_front hsending
  have hplaces : LogShipping.places { s with sending := none } =
      countedSeqs s.history ++ s.buffer.dropped ++ s.buffer.lines.map PushedLine.seq := rfl
  have hbefore : s.places = countedSeqs s.history ++ s.buffer.dropped ++
      (batch.lines.map PushedLine.seq ++ s.buffer.lines.map PushedLine.seq) := by
    rw [LogShipping.places, LogShipping.pending, hsending, hway, List.map_append]
    rfl
  have hsub : (LogShipping.places { s with sending := none }).Sublist s.places := by
    rw [hbefore]
    exact (List.Sublist.refl _).append (List.sublist_append_right _ _)
  refine ⟨(hway ▸ h.queued).drop h.ordered, h.ordered, h.bounded, h.rows, ?_, h.once.sublist hsub,
    fun n hn => h.placed n (hsub.subset hn), fun n hn => ?_, ?_, h.complete⟩
  · refine ⟨[], s.buffer.lines, rfl, .inr (Nat.zero_le _), hbuffer, ?_⟩
    rintro p ⟨⟩
  · rcases h.accounted n hn with hplace | hdone
    · rw [hbefore, ← List.append_assoc, List.mem_append, List.mem_append] at hplace
      rw [hplaces, List.mem_append]
      rcases hplace with (hplace | hbatch) | hplace
      · exact .inl (.inl hplace)
      · obtain ⟨p, hp, rfl⟩ := List.mem_map.mp hbatch
        exact .inr (h.delivered _ hsending rfl p hp)
      · exact .inl (.inr hplace)
    · exact .inr hdone
  · rintro p ⟨⟩

theorem fail (h : s.Inv) (hsending : s.sending = some (batch, stored))
    (hdropped : stored = true → batch.dropped = []) :
    Inv { s with buffer := s.buffer.restore batch, sending := none } := by
  obtain ⟨hway, hfits, hbuffer⟩ := h.sending_front hsending
  obtain ⟨lost, kept, hlines, hrestore⟩ := restore_cases s.buffer batch
  rw [hlines] at hfits
  rw [hlines, List.append_assoc] at hway
  rw [hrestore]
  have hpending : s.pending = batch.dropped ++ s.buffer.dropped := by
    rw [LogShipping.pending, hsending]
    cases stored with
    | false => rfl
    | true => rw [hdropped rfl]
  have hplaces : (LogShipping.places { s with
      buffer := ⟨kept ++ s.buffer.lines, s.buffer.dropped ++ batch.dropped ++
        (lost.map PushedLine.seq).reverse⟩
      sending := none }).Perm s.places := by
    rw [← Multiset.coe_eq_coe, LogShipping.places, LogShipping.places, hway, hpending]
    simp only [LogShipping.onTheWay, LogShipping.pending, List.map_append, ← Multiset.coe_add,
      Multiset.coe_reverse]
    abel
  refine ⟨(hway ▸ h.queued).drop h.ordered, h.ordered, h.bounded, h.rows, ?_,
    hplaces.nodup_iff.mpr h.once, fun n hn => h.placed n (hplaces.mem_iff.mp hn), fun n hn => ?_,
    ?_, h.complete⟩
  · refine ⟨kept, s.buffer.lines, rfl, hfits.suffix (List.suffix_append lost kept), hbuffer, ?_⟩
    rintro p ⟨⟩
  · rw [hplaces.mem_iff]
    exact h.accounted n hn
  · rintro p ⟨⟩

theorem history_store {now : Int} (hnotice : NoticeFits s batch now) :
    lineSeqs (s.history ++ (inserted s.rows batch now).map LogRow.origin) =
        lineSeqs s.history ++ ((unseen s.rows batch.lines).take
          (roomLeft s.rows now).toNat).map PushedLine.seq ∧
      countedSeqs (s.history ++ (inserted s.rows batch now).map LogRow.origin) =
        countedSeqs s.history ++ batch.dropped := by
  rw [inserted_eq, List.map_append, lineSeqs_append, lineSeqs_append, countedSeqs_append,
    countedSeqs_append, lineSeqs_lineRows, countedSeqs_lineRows, lineSeqs_noticeRows,
    countedSeqs_noticeRows, List.append_nil, List.nil_append]
  refine ⟨rfl, ?_⟩
  split
  · next hcut =>
    have hnone : batch.dropped = [] := by
      by_contra hne
      exact absurd (hnotice hne) (Nat.not_le_of_lt hcut)
    rw [hnone]
  · rfl

theorem mem_store {rows : List LogRow} {now : Int} {row : LogRow}
    (hstore : storeAgentLogs s.rows batch now = .ok rows) (hrow : row ∈ rows) :
    row ∈ s.rows ∨ row.line.target = noticeTarget ∨
      ∃ p ∈ (unseen s.rows batch.lines).take (roomLeft s.rows now).toNat,
        row = ⟨p.line.clean, now, .line p.seq⟩ := by
  obtain ⟨-, hstore⟩ := guard_eq_ok hstore
  cases hstore
  have hrow := (List.mem_filter.mp hrow).1
  rw [inserted_eq, List.mem_append, List.mem_append] at hrow
  rcases hrow with hrow | hrow | hrow
  · exact .inl hrow
  · obtain ⟨p, hp, rfl⟩ := List.mem_map.mp hrow
    exact .inr (.inr ⟨p, hp, rfl⟩)
  · exact .inr (.inl (target_noticeRows hrow))

theorem store (h : s.Inv) (hsending : s.sending = some (batch, false)) {now : Int}
    (hlook : NoLookAlike s batch) (hremembered : Remembered s batch)
    (hnotice : NoticeFits s batch now) (hstore : s.store batch now = some t) : t.Inv := by
  obtain ⟨hway, hfits, hbuffer⟩ := h.sending_front hsending
  obtain ⟨done, hlines, hdone, hnew⟩ := h.unseen_split hsending hlook hremembered
  obtain ⟨hlineSeqs, hcounted⟩ := history_store (s := s) hnotice
  unfold LogShipping.store at hstore
  split at hstore
  · cases hstore
  next rows hrows =>
  cases hstore
  -- The batch is what was stored before, what is stored now and what is cut off.
  generalize htaken : (unseen s.rows batch.lines).take (roomLeft s.rows now).toNat = taken
    at hlineSeqs
  generalize hcut : (unseen s.rows batch.lines).drop (roomLeft s.rows now).toNat = cut
  have hunseen : unseen s.rows batch.lines = taken ++ cut := by
    rw [← htaken, ← hcut, List.take_append_drop]
  have hsplit : batch.lines ++ s.buffer.lines = done ++ (taken ++ (cut ++ s.buffer.lines)) := by
    rw [hlines, hunseen, List.append_assoc, List.append_assoc]
  have hbehind : ∀ p ∈ taken ++ (cut ++ s.buffer.lines), p.seq ∉ lineSeqs s.history := by
    intro p hp
    rw [← List.append_assoc, ← hunseen] at hp
    rcases List.mem_append.mp hp with hp | hp
    · exact hnew p hp
    · exact hbuffer p hp
  have hqueued : Queued s.pushed (lineSeqs s.history) (done ++ (taken ++ (cut ++ s.buffer.lines))) :=
    hsplit ▸ hway ▸ h.queued
  have hmem : ∀ p ∈ taken, p ∈ done ++ (taken ++ (cut ++ s.buffer.lines)) := fun p hp =>
    List.mem_append_right _ (List.mem_append_left _ hp)
  have hgrows : ∀ n ∈ lineSeqs s.history,
      n ∈ lineSeqs s.history ++ taken.map PushedLine.seq := fun n => List.mem_append_left _
  have hplaces : countedSeqs s.history ++ batch.dropped ++ s.buffer.dropped ++
      (batch.lines ++ s.buffer.lines).map PushedLine.seq = s.places := by
    rw [LogShipping.places, LogShipping.pending, hsending, hway, List.append_assoc
      (countedSeqs s.history)]
  -- Lines of the batch are stored now, or cut off by the cap.
  have hdelivered : ∀ p ∈ batch.lines,
      p.seq ∈ lineSeqs s.history ++ taken.map PushedLine.seq ∨ p ∈ cut := by
    intro p hp
    rw [hlines, hunseen, List.mem_append, List.mem_append] at hp
    rcases hp with hp | hp | hp
    · exact .inl (hgrows _ (hdone p hp))
    · exact .inl (List.mem_append_right _ (List.mem_map_of_mem hp))
    · exact .inr hp
  constructor
  case queued =>
    have hstored := hqueued.store hdone hbehind
    rw [← hsplit] at hstored
    rw [hlineSeqs]
    exact hstored
  case ordered =>
    rw [hlineSeqs]
    exact hqueued.ordered_store h.ordered hbehind
  case bounded =>
    rw [hlineSeqs]
    intro n hn
    rcases List.mem_append.mp hn with hn | hn
    · exact h.bounded n hn
    · obtain ⟨p, hp, rfl⟩ := List.mem_map.mp hn
      exact hqueued.lt_length (hmem p hp)
  case rows =>
    rw [hlineSeqs]
    intro row hrow htarget
    rcases mem_store hrows hrow with hrow | hnoticeRow | ⟨p, hp, rfl⟩
    · obtain ⟨n, hn, hline⟩ := h.rows row hrow htarget
      exact ⟨n, hgrows n hn, hline⟩
    · exact absurd hnoticeRow htarget
    · rw [htaken] at hp
      refine ⟨p.seq, List.mem_append_right _ (List.mem_map_of_mem hp), rfl, ?_⟩
      rw [hqueued.tagged p (hmem p hp), Option.map_some]
  case front =>
    rw [hlineSeqs]
    refine ⟨batch.lines, s.buffer.lines, rfl, hfits, fun p hp hstored => ?_, ?_⟩
    · rcases List.mem_append.mp hstored with hstored | hstored
      · exact hbuffer p hp hstored
      · obtain ⟨q, hq, hsame⟩ := List.mem_map.mp hstored
        rw [← List.append_assoc] at hqueued
        have := hqueued.lt (List.mem_append_right done hq) (List.mem_append_right cut hp)
        omega
    · rintro p ⟨⟩
      rfl
  case once =>
    rw [LogShipping.places, hcounted]
    exact hplaces ▸ h.once
  case placed =>
    rw [LogShipping.places, hcounted]
    exact hplaces ▸ h.placed
  case accounted =>
    rw [LogShipping.places, hcounted, hlineSeqs]
    intro n hn
    rcases h.accounted n hn with hplace | hstored | hrejected
    · exact .inl (hplaces ▸ hplace)
    · exact .inr (.inl (hgrows n hstored))
    · exact .inr (.inr (List.mem_append_left _ hrejected))
  case delivered =>
    rw [hlineSeqs]
    rintro p ⟨⟩ - l hl
    refine (hdelivered l hl).imp id fun hl => List.mem_append_right _ ?_
    rw [LogShipping.cutOff, hcut]
    exact List.mem_map_of_mem hl
  case complete =>
    rw [hlineSeqs, hcounted]
    intro b hb
    have hold : ∀ b ∈ s.complete, (∀ p ∈ b.lines,
        p.seq ∈ lineSeqs s.history ++ taken.map PushedLine.seq) ∧
        ∀ n ∈ b.dropped, n ∈ countedSeqs s.history ++ batch.dropped := fun b hb =>
      ⟨fun p hp => hgrows _ ((h.complete b hb).1 p hp),
        fun n hn => List.mem_append_left _ ((h.complete b hb).2 n hn)⟩
    split at hb
    · next hroom =>
      rcases List.mem_append.mp hb with hb | hb
      · exact hold b hb
      · cases List.mem_singleton.mp hb
        have hnone : cut = [] := by
          rw [← hcut, List.drop_eq_nil_iff]
          rw [length_wanted] at hroom
          omega
        refine ⟨fun p hp => ?_, fun n hn => List.mem_append_right _ hn⟩
        rcases hdelivered p hp with hstored | hp
        · exact hstored
        · rw [hnone] at hp
          cases hp
    · exact hold b hb

theorem step {a : LogStep} (hok : Permitted s a) (hstep : s.step a = some t) (h : s.Inv) :
    t.Inv := by
  cases a with
  | push line =>
    cases hstep
    exact h.push line
  | ship =>
    obtain ⟨⟨hidle, -⟩, ht⟩ := Option.ite_none_right_eq_some.mp hstep
    cases ht
    exact h.ship hidle
  | store now =>
    simp only [LogShipping.step] at hstep
    split at hstep
    · next batch hsending =>
      obtain ⟨hlook, hremembered, hnotice⟩ := hok _ hsending
      exact h.store hsending hlook hremembered hnotice hstep
    · cases hstep
  | reply =>
    simp only [LogShipping.step] at hstep
    split at hstep
    · next hsending =>
      cases hstep
      exact h.settle hsending
    · cases hstep
  | fail =>
    simp only [LogShipping.step] at hstep
    split at hstep
    · next hsending =>
      cases hstep
      exact h.fail hsending (hok _ hsending)
    · cases hstep
  | abandon =>
    obtain ⟨hsending, ht⟩ := Option.ite_none_left_eq_some.mp hstep
    cases ht
    obtain ⟨⟨batch, stored⟩, hsending⟩ := Option.ne_none_iff_exists'.mp hsending
    obtain rfl : stored = true := hok _ hsending
    exact h.settle hsending

theorem start : LogShipping.start.Inv where
  queued := ⟨by simp [LogShipping.start, LogShipping.onTheWay],
    by simp [LogShipping.start, LogShipping.onTheWay],
    by simp [LogShipping.start, LogShipping.onTheWay],
    by simp [LogShipping.start, LogShipping.onTheWay]⟩
  ordered := List.Pairwise.nil
  bounded n hn := by cases hn
  rows row hrow := by cases hrow
  front := ⟨[], [], rfl, .inr (Nat.zero_le _), by simp, by rintro p ⟨⟩⟩
  once := List.nodup_nil
  placed n hn := by cases hn
  accounted n hn := by cases hn
  delivered p hp := by cases hp
  complete b hb := by cases hb

/-- A batch that was stored in full adds nothing when it is sent again. -/
theorem resend (h : s.Inv) (hsending : s.sending = some (batch, false))
    (hcomplete : batch ∈ s.complete) {now : Int} (hok : Permitted s (.store now))
    (hstore : s.step (.store now) = some t) : t.history = s.history ∧ t.rows ⊆ s.rows := by
  obtain ⟨hlook, hremembered, -⟩ := hok _ hsending
  obtain ⟨hstored, hcounted⟩ := h.complete batch hcomplete
  obtain ⟨done, hlines, -, hnew⟩ := h.unseen_split hsending hlook hremembered
  have hunseen : unseen s.rows batch.lines = [] := by
    refine List.eq_nil_iff_forall_not_mem.mpr fun p hp => hnew p hp (hstored p ?_)
    rw [hlines]
    exact List.mem_append_right done hp
  -- What a notice counts is no longer to be counted.
  have hdropped : batch.dropped = [] := by
    refine List.eq_nil_iff_forall_not_mem.mpr fun n hn => ?_
    have hpending : n ∈ s.pending := by
      rw [LogShipping.pending, hsending]
      exact List.mem_append_left _ hn
    exact (List.nodup_append.mp h.exact.countedOnce).2.2 n (hcounted n hn) n hpending rfl
  have hinserted : inserted s.rows batch now = [] := by
    simp [inserted, wanted, hunseen, hdropped, lineRows, droppedRows]
  simp only [LogShipping.step, hsending, LogShipping.store, storeAgentLogs, hinserted] at hstore
  split at hstore
  · cases hstore
  · next rows hrows =>
    cases hstore
    split at hrows
    · cases hrows
    · cases hrows
      simp

end LogShipping.Inv

/-- **The log arrives exactly once** in every run whose steps all meet the condition. -/
theorem log_arrives_once (actions : List LogStep) (s : LogShipping)
    (h : logShipping.Runs Permitted .start actions s) :
    s.Exact ∧ ∀ batch ∈ s.complete, s.sending = some (batch, false) → ∀ now t,
      Permitted s (.store now) → logShipping.step s (.store now) = some t →
        t.history = s.history ∧ t.rows ⊆ s.rows := by
  have hinv : s.Inv := h.inv (fun _ _ _ hok hstep hs => hs.step hok hstep) LogShipping.Inv.start
  exact ⟨hinv.exact, fun batch hbatch hsending now t hok hstep =>
    hinv.resend hsending hbatch hok hstep⟩

instance (s : LogShipping) (a : LogStep) : Decidable (Permitted s a) := by
  cases a <;> unfold Permitted
  case store => unfold NoLookAlike Remembered NoticeFits; infer_instance
  all_goals infer_instance

namespace Sample

def heartbeatLine : AgentLogLine := ⟨0, "warn", "gridops_host_agent", "heartbeat failed"⟩

def lostReply : List LogStep :=
  [.push heartbeatLine, .ship, .store 0, .fail, .ship, .store 0, .reply]

/-- Two lines of one millisecond with the same text, in two batches. -/
def sameLook : List LogStep :=
  [.push heartbeatLine, .ship, .store 0, .reply, .push heartbeatLine, .ship, .store 0, .reply]

end Sample

theorem log_arrives_once_sample : ∃ s,
    logShipping.Runs Permitted .start Sample.lostReply s ∧ s.Exact ∧ s.history = [.line 0] := by
  have hexec : (logShipping.execIf Permitted .start Sample.lostReply).any
      (fun s => decide (s.history = [.line 0])) = true := by
    decide +kernel
  obtain ⟨s, hs, hhistory⟩ := (Option.any_eq_true _ _).mp hexec
  have hruns := Machine.runs_of_execIf hs
  exact ⟨s, hruns, (log_arrives_once _ s hruns).1, of_decide_eq_true hhistory⟩

/-- A second line that looks like the first is taken for it, and a session that ends with a batch on
its way loses it. -/
theorem same_look_line_lost :
    (∃ s, logShipping.Run .start Sample.sameLook s ∧ s.history = [.line 0] ∧ ¬s.Exact) ∧
      ∃ s, logShipping.Run .start [.push Sample.heartbeatLine, .ship, .abandon] s ∧
        s.history = [] ∧ ¬s.Exact := by
  -- A push that is nowhere to be found.
  have hlost : ∀ (s : LogShipping) (n : ℕ), (n < s.pushed.length ∧ n ∉ lineSeqs s.history ∧
      n ∉ s.onTheWay.map PushedLine.seq ∧ n ∉ s.pending ∧ n ∉ countedSeqs s.history ∧
      n ∉ s.rejected) → ¬s.Exact := by
    intro s n hn h
    have := h.accounted n hn.1
    tauto
  have hlook : (logShipping.exec .start Sample.sameLook).any (fun s => decide
      (s.history = [.line 0] ∧ 1 < s.pushed.length ∧ 1 ∉ lineSeqs s.history ∧
        1 ∉ s.onTheWay.map PushedLine.seq ∧ 1 ∉ s.pending ∧ 1 ∉ countedSeqs s.history ∧
        1 ∉ s.rejected)) = true := by
    decide +kernel
  have habandon : (logShipping.exec .start [.push Sample.heartbeatLine, .ship, .abandon]).any
      (fun s => decide (s.history = [] ∧ 0 < s.pushed.length ∧ 0 ∉ lineSeqs s.history ∧
        0 ∉ s.onTheWay.map PushedLine.seq ∧ 0 ∉ s.pending ∧ 0 ∉ countedSeqs s.history ∧
        0 ∉ s.rejected)) = true := by
    decide +kernel
  obtain ⟨s, hs, hstate⟩ := (Option.any_eq_true _ _).mp hlook
  obtain ⟨hhistory, hnowhere⟩ := of_decide_eq_true hstate
  obtain ⟨t, ht, htstate⟩ := (Option.any_eq_true _ _).mp habandon
  obtain ⟨hthistory, htnowhere⟩ := of_decide_eq_true htstate
  exact ⟨⟨s, Machine.run_iff_exec.mpr hs, hhistory, hlost s 1 hnowhere⟩,
    t, Machine.run_iff_exec.mpr ht, hthistory, hlost t 0 htnowhere⟩

end Gridops.HostAgent
