import Gridops.Fleet.Registry.Logs
import Gridops.Lib.Run

/-!
# The hourly cap on log lines

`store_agent_logs` counts the rows of the running hour before it inserts. The notice that lines
are dropped takes the hour past its cap, and with the hour past its cap nothing is inserted.
-/

namespace Gridops.Fleet

open Gridops.Lib

def LogRow.isIn (hour : Int) (row : LogRow) : Bool := row.receivedAt / hourMillis == hour

def LogRow.isOverCap (row : LogRow) : Bool := row.origin == .overCap

/-- The rows of one host, every row that was ever stored for it, and the clock of the last call. -/
structure LogTable where
  rows : List LogRow
  stored : List LogRow
  now : Int
deriving DecidableEq

def LogTable.call (t : LogTable) (c : AgentLogBatch × ℕ) : LogTable :=
  match storeAgentLogs t.rows c.1 (t.now + c.2) with
  | .error _ => { t with now := t.now + c.2 }
  | .ok rows => ⟨rows, t.stored ++ inserted t.rows c.1 (t.now + c.2), t.now + c.2⟩

theorem mem_wanted {rows : List LogRow} {batch : AgentLogBatch} {now : Int} {row : LogRow}
    (h : row ∈ wanted rows batch now) : row.receivedAt = now ∧ row.isOverCap = false := by
  rcases List.mem_append.mp h with h | h
  · obtain ⟨p, -, rfl⟩ := List.mem_map.mp h
    exact ⟨rfl, rfl⟩
  · unfold droppedRows at h
    split at h <;> simp at h
    rw [h]
    exact ⟨rfl, rfl⟩

theorem inserted_cases (rows : List LogRow) (batch : AgentLogBatch) (now : Int) :
    (∀ r ∈ inserted rows batch now, r.receivedAt = now) ∧
      ((inserted rows batch now).length ≤ (roomLeft rows now).toNat ∧
          (inserted rows batch now).countP (·.isOverCap) = 0 ∨
        0 ≤ roomLeft rows now ∧ (inserted rows batch now).length = roomLeft rows now + 1 ∧
          (inserted rows batch now).countP (·.isOverCap) = 1) := by
  have hwanted : ∀ l, l ⊆ wanted rows batch now →
      (∀ r ∈ l, r.receivedAt = now) ∧ l.countP (·.isOverCap) = 0 := fun l hl =>
    ⟨fun r hr => (mem_wanted (hl hr)).1,
      List.countP_eq_zero.mpr fun r hr => by simp [(mem_wanted (hl hr)).2]⟩
  unfold inserted
  dsimp only
  split
  · next hcut =>
    obtain ⟨hat, hnone⟩ := hwanted _ (List.take_subset (roomLeft rows now).toNat _)
    have hlength := List.length_take_of_le (Nat.le_of_lt hcut)
    unfold overCapRows
    split
    · next hroom =>
      refine ⟨fun r hr => ?_, .inr ⟨hroom, ?_, by rw [List.countP_append, hnone]; rfl⟩⟩
      · rcases List.mem_append.mp hr with hr | hr
        · exact hat r hr
        · rw [List.mem_singleton.mp hr]
      · rw [List.length_append, hlength, List.length_singleton]
        omega
    · rw [List.append_nil]
      exact ⟨hat, .inl ⟨Nat.le_of_eq hlength, hnone⟩⟩
  · next hfits =>
    obtain ⟨hat, hnone⟩ := hwanted _ (List.Subset.refl _)
    exact ⟨hat, .inl ⟨Nat.le_of_not_lt hfits, hnone⟩⟩

/-- Only old rows are gone, and an hour with the notice is full. -/
structure LogTable.Capped (t : LogTable) : Prop where
  past : ∀ r ∈ t.stored, r.receivedAt ≤ t.now
  rows : ∃ cutoff ≤ t.now - agentLogRetentionMillis,
    t.rows = t.stored.filter (·.receivedAt ≥ cutoff)
  capped : ∀ hour, t.stored.countP (·.isIn hour) ≤ 6001 ∧
    (t.stored.countP (fun r => r.isIn hour && r.isOverCap) = 0 ∨
      t.stored.countP (fun r => r.isIn hour && r.isOverCap) = 1 ∧
        t.stored.countP (·.isIn hour) = 6001)

/-- The rows that a call counts are all that were stored in its hour. -/
theorem LogTable.Capped.roomLeft {t : LogTable} (h : t.Capped) {now : Int} (hnow : t.now ≤ now) :
    roomLeft t.rows now = 6000 - (t.stored.countP (·.isIn (now / hourMillis)) : Int) := by
  obtain ⟨cutoff, hcutoff, hrows⟩ := h.rows
  rw [Fleet.roomLeft, hrows, List.filter_filter, List.countP_eq_length_filter]
  congr 3
  refine List.filter_congr fun r hr => ?_
  have hpast := h.past r hr
  unfold LogRow.isIn hourMillis agentLogRetentionMillis at *
  rw [beq_eq_decide, ← Bool.decide_and]
  exact decide_eq_decide.mpr (by omega)

theorem LogTable.Capped.call {t : LogTable} (h : t.Capped) (c : AgentLogBatch × ℕ) :
    (t.call c).Capped := by
  unfold LogTable.call
  generalize hnow : t.now + (c.2 : Int) = now
  have hle : t.now ≤ now := by omega
  obtain ⟨cutoff, hcutoff, hrows⟩ := h.rows
  split
  · refine ⟨fun r hr => Int.le_trans (h.past r hr) hle, ⟨cutoff, ?_, hrows⟩, h.capped⟩
    exact Int.le_trans hcutoff (Int.sub_le_sub_right hle _)
  · next hstore =>
    obtain ⟨-, hstore⟩ := guard_eq_ok hstore
    cases hstore
    obtain ⟨hat, hcount⟩ := inserted_cases t.rows c.1 now
    refine ⟨fun r hr => ?_, ⟨now - agentLogRetentionMillis, Int.le_refl _, ?_⟩, fun hour => ?_⟩
    · rcases List.mem_append.mp hr with hr | hr
      · exact Int.le_trans (h.past r hr) hle
      · exact Int.le_of_eq (hat r hr)
    · show List.filter _ (t.rows ++ _) = _
      rw [List.filter_append, List.filter_append, hrows, List.filter_filter]
      congr 1
      refine List.filter_congr fun r _ => ?_
      rw [← Bool.decide_and]
      exact decide_eq_decide.mpr (by omega)
    · obtain ⟨hold, hnotice⟩ := h.capped hour
      rw [List.countP_append, List.countP_append]
      by_cases hhour : now / hourMillis = hour
      · have hin : ∀ r ∈ inserted t.rows c.1 now, r.isIn hour = true := fun r hr => by
          simp [LogRow.isIn, hat r hr, hhour]
        have hover : (inserted t.rows c.1 now).countP (fun r => r.isIn hour && r.isOverCap) =
            (inserted t.rows c.1 now).countP (·.isOverCap) :=
          List.countP_congr fun r hr => by simp [hin r hr]
        rw [List.countP_eq_length.mpr hin, hover]
        rw [h.roomLeft hle, hhour] at hcount
        omega
      · have hout : ∀ r ∈ inserted t.rows c.1 now, r.isIn hour = false := fun r hr => by
          simpa [LogRow.isIn, hat r hr] using hhour
        have hnone : ∀ p : LogRow → Bool,
            (inserted t.rows c.1 now).countP (fun r => r.isIn hour && p r) = 0 := fun p =>
          List.countP_eq_zero.mpr fun r hr => by simp [hout r hr]
        have hzero := hnone fun _ => true
        simp only [Bool.and_true] at hzero
        rw [hzero, hnone]
        exact ⟨hold, hnotice⟩

/-- **A chatty agent** fills an hour with at most 6,000 lines and one notice. -/
theorem hour_capped (start : Int) (calls : List (AgentLogBatch × ℕ)) (hour : Int) :
    (calls.foldl LogTable.call ⟨[], [], start⟩).rows.countP (·.isIn hour) ≤ 6001 ∧
      (calls.foldl LogTable.call ⟨[], [], start⟩).stored.countP
        (fun r => r.isIn hour && r.isOverCap) ≤ 1 := by
  have hinit : LogTable.Capped ⟨[], [], start⟩ := ⟨by simp, ⟨_, Int.le_refl _, rfl⟩, by simp⟩
  have hcapped : (calls.foldl LogTable.call ⟨[], [], start⟩).Capped :=
    foldl_rel (R := fun s t : LogTable => s.Capped → t.Capped) (fun _ h => h)
      (fun _ _ _ h₁ h₂ h => h₂ (h₁ h)) (fun _ c h => h.call c) calls _ hinit
  obtain ⟨cutoff, -, hrows⟩ := hcapped.rows
  obtain ⟨hstored, hnotice⟩ := hcapped.capped hour
  refine ⟨Nat.le_trans ?_ hstored, by omega⟩
  rw [hrows]
  exact List.filter_sublist.countP_le

end Gridops.Fleet
