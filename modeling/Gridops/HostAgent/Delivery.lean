import Gridops.HostAgent.Output

/-!
# What arrives of a runner's output

The file that the committed row names holds a part of the output without gap or repetition, at every
instant of every run: also between the write and its record, and whatever a crash left of a write.
The one thing that can be lost is the end: an error of the reader counts as the end of the output,
and closes the stream.

The offset of every chunk ever posted is at most what the control plane has received, since the
upload only goes on from a receipt. So no append leaves a gap (`plan_spec`).
-/

namespace Gridops.HostAgent

open Gridops.Lib Gridops.Fleet

def Shipping.received (s : Shipping) : ℕ := (s.row.map OutputRow.receivedBytes).getD 0

/-- The file of the row holds a part of the output, and no more than the cap. -/
def Shipping.Stored (whole : List Byte) (s : Shipping) : Prop :=
  ∀ r, s.row = some r →
    Holds whole ((s.files r.path).getD []) r.sizeBytes r.receivedBytes ∧
      r.sizeBytes ≤ maxStreamBytes

/-- What was received does not shrink, and the file that the row names is not deleted. -/
structure Shipping.Advances (s t : Shipping) : Prop where
  received_le : s.received ≤ t.received
  file : ∀ r, t.row = some r → (s.files r.path).isSome → (t.files r.path).isSome

/-- A part of the output that starts within what was received. -/
structure Fits (whole : List Byte) (received : ℕ) (chunk : RunnerOutputChunk) : Prop extends
    PartOf whole chunk where
  offset_le : chunk.offset ≤ received

/-- The upload has read on from a place that the control plane has reached. -/
def Upload.Ok (whole : List Byte) (received : ℕ) : Upload → Prop
  | .gathering position acknowledged buffer =>
    position ≤ acknowledged ∧ acknowledged ≤ received ∧
      position + buffer.length ≤ whole.length ∧
      buffer = Lib.window whole position (position + buffer.length)
  | .sending position chunk => Fits whole received chunk ∧ chunk.stop = position
  | _ => True

section Upload

variable {whole buffer : List Byte} {received position acknowledged n : ℕ}
  {chunk : RunnerOutputChunk} {u : Upload}

theorem Fits.mono (h : Fits whole received chunk) (hle : received ≤ n) : Fits whole n chunk :=
  { h with offset_le := Nat.le_trans h.offset_le hle }

theorem Upload.Ok.mono (h : u.Ok whole received) (hle : received ≤ n) : u.Ok whole n := by
  cases u with
  | gathering position acknowledged buffer => exact ⟨h.1, Nat.le_trans h.2.1 hle, h.2.2⟩
  | sending position chunk => exact ⟨h.1.mono hle, h.2⟩
  | idle | asking | ended => trivial

theorem Upload.Ok.fits (h : u.Ok whole received) (hchunk : u.chunk = some chunk) :
    Fits whole received chunk := by
  cases u with
  | asking =>
    cases hchunk
    exact ⟨⟨Nat.zero_le _, by simp [RunnerOutputChunk.stop]⟩, Nat.zero_le _⟩
  | sending position chunk' =>
    cases hchunk
    exact h.1
  | idle | gathering _ _ _ | ended => cases hchunk

theorem flush_ok (h : (Upload.gathering position acknowledged buffer).Ok whole received)
    (ended : Bool) : (flush position acknowledged buffer ended).Ok whole received := by
  obtain ⟨hposition, hacknowledged, hwhole, hbuffer⟩ := h
  unfold flush
  simp only
  split
  · have hstop : position + min (acknowledged - position) buffer.length +
        (buffer.drop (min (acknowledged - position) buffer.length)).length =
        position + buffer.length := by
      rw [List.length_drop]
      omega
    refine ⟨⟨⟨?_, ?_⟩, ?_⟩, hstop⟩
    · rw [RunnerOutputChunk.stop, hstop]
      exact hwhole
    · rw [RunnerOutputChunk.stop, hstop]
      exact (congrArg (List.drop _) hbuffer).trans drop_window
    · show position + min (acknowledged - position) buffer.length ≤ received
      omega
  · refine ⟨by omega, hacknowledged, by simpa using hwhole, by simp⟩

theorem read_ok (h : (Upload.gathering position acknowledged buffer).Ok whole received)
    (hn : position + buffer.length + n ≤ whole.length) :
    (gather position acknowledged (buffer ++ Lib.window whole (position + buffer.length)
      (position + buffer.length + n))).Ok whole received := by
  obtain ⟨hposition, hacknowledged, -, hbuffer⟩ := h
  have hread : (Lib.window whole (position + buffer.length)
      (position + buffer.length + n)).length = n := by
    rw [length_window hn]
    omega
  have hok : (Upload.gathering position acknowledged (buffer ++
      Lib.window whole (position + buffer.length) (position + buffer.length + n))).Ok
      whole received := by
    refine ⟨hposition, hacknowledged, ?_, ?_⟩
    · rw [List.length_append, hread]
      omega
    · rw [List.length_append, hread, ← Nat.add_assoc]
      exact (congrArg (· ++ _) hbuffer).trans
        (window_append (Nat.le_add_right _ _) (Nat.le_add_right _ _))
  unfold gather
  split
  · exact hok
  · exact flush_ok hok false

theorem take_ok {receipt : RunnerOutputReceipt} (h : u.Ok whole received)
    (hchunk : u.chunk = some chunk) (hreceived : receipt.received ≤ received)
    (hcovers : receipt.finished = false → chunk.stop ≤ receipt.received) :
    (u.take receipt).Ok whole received := by
  have hnext : ∀ position ≤ whole.length, (receipt.finished = false → position ≤ receipt.received) →
      (if receipt.finished then Upload.ended
        else .gathering position receipt.received []).Ok whole received := by
    intro position hposition hcovers
    cases hfinished : receipt.finished with
    | true => simp [Upload.Ok]
    | false => simpa [Upload.Ok] using ⟨hcovers hfinished, hreceived, hposition⟩
  cases u with
  | asking => exact hnext 0 (Nat.zero_le _) fun _ => Nat.zero_le _
  | sending position chunk' =>
    cases hchunk
    obtain ⟨hfits, rfl⟩ := h
    exact hnext _ hfits.stop_le hcovers
  | idle | gathering _ _ _ | ended => exact h

end Upload

/-! ## The append -/

/-- The row is the one that the append has read, up to its being closed since. -/
def Matches (row : Option OutputRow) (stream : Stream) : Prop :=
  (row = none ∧ stream.path = streamPath stream.id ∧ stream.size = 0 ∧ stream.received = 0) ∨
    ∃ r, row = some r ∧ r.id = stream.id ∧ r.path = stream.path ∧ r.sizeBytes = stream.size ∧
      r.receivedBytes = stream.received

def Appending.Ok (whole : List Byte) (s : Shipping) : Appending → Prop
  | .located chunk stream =>
    Fits whole s.received chunk ∧ chunk.data.length ≤ maxOutputChunkBytes ∧ Matches s.row stream
  | .written chunk stream path size =>
    Fits whole s.received chunk ∧ Matches s.row stream ∧
      Holds whole ((s.files path).getD []) size (max stream.received chunk.stop) ∧
      size ≤ maxStreamBytes ∧
      (path = stream.path ∨ path = trimmedPath stream.id chunk.stop)
  | .recorded chunk stream path result =>
    stream.received ≤ s.received ∧
      match result with
      | .ok true => chunk.stop ≤ s.received ∧ ∀ r, s.row = some r → r.path = path
      | _ => ∀ r, s.row = some r → r.path = stream.path

structure Shipping.Inv (whole : List Byte) (s : Shipping) : Prop where
  stored : s.Stored whole
  named : ∀ r, s.row = some r → Named r.id r.receivedBytes r.path
  posted : ∀ chunk ∈ s.posted, Fits whole s.received chunk
  receipts : ∀ p ∈ s.receipts, p.2.received ≤ s.received ∧
    (p.2.finished = false → p.1.stop ≤ p.2.received)
  upload : s.upload.Ok whole s.received
  appending : ∀ a, s.appending = some a → a.Ok whole s

section Matches

variable {row : Option OutputRow} {stream : Stream} {r : OutputRow}

theorem Matches.of_some (h : Matches row stream) (hr : row = some r) :
    r.id = stream.id ∧ r.path = stream.path ∧ r.sizeBytes = stream.size ∧
      r.receivedBytes = stream.received := by
  obtain ⟨hnone, -⟩ | ⟨r', hr', hfields⟩ := h
  · cases hnone.symm.trans hr
  · cases hr.symm.trans hr'
    exact hfields

theorem Matches.of_none (h : Matches row stream) (hnone : row = none) :
    stream.path = streamPath stream.id ∧ stream.size = 0 ∧ stream.received = 0 := by
  obtain ⟨-, hfields⟩ | ⟨r, hr, -⟩ := h
  · exact hfields
  · cases hnone.symm.trans hr

theorem Matches.closed (h : Matches row stream) :
    Matches (row.map fun r => { r with complete := true }) stream := by
  obtain ⟨rfl, hfields⟩ | ⟨r, rfl, hfields⟩ := h
  · exact .inl ⟨rfl, hfields⟩
  · exact .inr ⟨_, rfl, hfields⟩

theorem findStream_matches {newId : String} (h : findStream row newId = .inr stream) :
    Matches row stream := by
  unfold findStream at h
  split at h
  · next r =>
    split at h
    · cases h
    · cases h
      exact .inr ⟨r, rfl, rfl, rfl, rfl, rfl⟩
  · cases h
    exact .inl ⟨rfl, rfl, rfl, rfl⟩

theorem findStream_closed {newId : String} {receipt : RunnerOutputReceipt}
    (h : findStream row newId = .inl receipt) :
    ∃ r, row = some r ∧ receipt = ⟨r.receivedBytes, true⟩ := by
  unfold findStream at h
  split at h
  · next r =>
    split at h
    · cases h
      exact ⟨r, rfl, rfl⟩
    · cases h
  · cases h

theorem insertOutput_closed {path : String} {current : Option OutputRow}
    (h : insertOutput row stream path = .ok current)
    (hclosed : ∀ r, current = some r → ¬(r.id = stream.id ∧ r.complete = false)) :
    current = row := by
  unfold insertOutput at h
  split at h
  · split at h
    · cases h
      exact absurd ⟨rfl, rfl⟩ (hclosed _ rfl)
    · cases h
  · cases h
    rfl

theorem recordOutput_ok {path : String} {size received : ℕ} {finished updated : Bool}
    {row' : Option OutputRow}
    (h : recordOutput row stream path size received finished = .ok (updated, row')) :
    updated = true ∧ row' = some ⟨stream.id, path, size, finished, received⟩ ∨
      updated = false ∧ row' = row := by
  obtain ⟨current, hcurrent, h⟩ := bind_eq_ok h
  split at h
  · split at h
    · next hopen =>
      cases h
      rw [hopen.1]
      exact .inl ⟨rfl, rfl⟩
    · next hclosed =>
      cases h
      refine .inr ⟨rfl, insertOutput_closed hcurrent fun r' hr' => ?_⟩
      cases hr'
      exact hclosed
  · cases h
    exact .inr ⟨rfl, insertOutput_closed hcurrent fun r hr => by cases hr⟩

end Matches

section Append

variable {whole : List Byte} {s t : Shipping} {stream : Stream} {chunk : RunnerOutputChunk}

theorem received_eq (h : Matches s.row stream) : s.received = stream.received := by
  cases hrow : s.row with
  | none =>
    rw [Shipping.received, hrow, (h.of_none hrow).2.2]
    rfl
  | some r =>
    rw [Shipping.received, hrow]
    exact (h.of_some hrow).2.2.2

theorem Shipping.Inv.holds (h : s.Inv whole) (hmatches : Matches s.row stream) :
    Holds whole ((s.files stream.path).getD []) stream.size stream.received ∧
      stream.size ≤ maxStreamBytes ∧ Named stream.id stream.received stream.path := by
  cases hrow : s.row with
  | none =>
    obtain ⟨hpath, hsize, hreceived⟩ := hmatches.of_none hrow
    rw [hsize, hreceived]
    exact ⟨⟨Nat.le_refl _, Nat.zero_le _, by simp⟩, Nat.zero_le _, .inl hpath⟩
  | some r =>
    obtain ⟨hid, hpath, hsize, hreceived⟩ := hmatches.of_some hrow
    rw [← hid, ← hpath, ← hsize, ← hreceived]
    exact ⟨(h.stored r hrow).1, (h.stored r hrow).2, h.named r hrow⟩

theorem Shipping.Inv.stored_write (h : s.Inv whole) (hmatches : Matches s.row stream)
    {w : FileWrite} (hw : w.Sound whole stream chunk s.files) (n : ℕ) :
    Shipping.Stored whole { s with files := w.apply n s.files } := by
  intro r hr
  obtain ⟨hholds, hbound, hnamed⟩ := h.holds hmatches
  obtain ⟨-, hpath, hsize, hreceived⟩ := hmatches.of_some hr
  rw [hpath, hsize, hreceived]
  exact ⟨hw.keeps hholds hnamed n, hbound⟩

theorem apply_isSome (w : FileWrite) (n : ℕ) (files : Files) (path : String)
    (h : (files path).isSome) : (w.apply n files path).isSome := by
  by_cases hpath : path = w.path
  · rw [hpath, FileWrite.apply, Function.update_self, Option.isSome_some]
  · rwa [FileWrite.apply, Function.update_of_ne hpath]

/-! ## One step of the append -/

theorem accept_inv (h : s.Inv whole) (hchunk : chunk ∈ s.posted)
    (hcheck : chunk.check.isOk) (newId : String) :
    (s.accept chunk newId).Inv whole ∧ s.Advances (s.accept chunk newId) := by
  have hsmall : chunk.data.length ≤ maxOutputChunkBytes := by
    by_contra hlarge
    simp [RunnerOutputChunk.check, Nat.lt_of_not_le hlarge, Except.toBool] at hcheck
  unfold Shipping.accept
  split
  · next receipt hfind =>
    obtain ⟨r, hr, rfl⟩ := findStream_closed hfind
    refine ⟨{ h with receipts := fun p hp => ?_ }, Nat.le_refl _, fun r _ => id⟩
    rcases List.mem_append.mp hp with hp | hp
    · exact h.receipts p hp
    · obtain rfl := List.mem_singleton.mp hp
      simp [Shipping.received, hr]
  · next stream hfind =>
    refine ⟨{ h with appending := fun a ha => ?_ }, Nat.le_refl _, fun r _ => id⟩
    cases ha
    exact ⟨h.posted chunk hchunk, hsmall, findStream_matches hfind⟩

theorem write_inv (h : s.Inv whole) (hlocated : s.appending = some (.located chunk stream))
    (hwrite : s.write chunk stream = some t) : t.Inv whole ∧ s.Advances t := by
  obtain ⟨hfits, hsmall, hmatches⟩ := h.appending _ hlocated
  have hreceived := received_eq hmatches
  obtain ⟨hholds, hbound, -⟩ := h.holds hmatches
  have hplan := plan_spec hholds hfits.toPartOf (hreceived ▸ hfits.offset_le) hsmall
  unfold Shipping.write at hwrite
  split at hwrite
  · next hnothing =>
    cases hwrite
    rw [hnothing] at hplan
    refine ⟨{ h with appending := fun a ha => ?_ }, Nat.le_refl _, fun r _ => id⟩
    cases ha
    refine ⟨hfits, hmatches, ?_, hbound, .inl rfl⟩
    rwa [Nat.max_eq_left hplan]
  · next w hw =>
    cases hwrite
    rw [hw] at hplan
    refine ⟨⟨h.stored_write hmatches hplan _, h.named, h.posted, h.receipts, h.upload, ?_⟩,
      Nat.le_refl _, fun r _ => apply_isSome _ _ _ _⟩
    intro a ha
    cases ha
    have hfile : w.apply w.bytes.length s.files w.path = some (w.keep ++ w.bytes) := by
      rw [FileWrite.apply, Function.update_self, List.take_length]
    refine ⟨hfits, hmatches, ?_, hplan.bound, hplan.place.imp And.left id⟩
    simp only [hfile, Nat.max_eq_right (Nat.le_of_lt hplan.later)]
    exact hplan.holds
  · cases hwrite

theorem torn_cases (s : Shipping) (count : ℕ) :
    s.torn count = s.files ∨ ∃ chunk stream w, s.appending = some (.located chunk stream) ∧
      stream.plan chunk s.files = .write w ∧ s.torn count = w.apply count s.files := by
  unfold Shipping.torn
  split
  · next chunk stream hlocated =>
    split
    · next w hw => exact .inr ⟨chunk, stream, w, hlocated, hw, rfl⟩
    · exact .inl rfl
  · exact .inl rfl

theorem abort_inv (h : s.Inv whole) (count : ℕ) :
    Shipping.Inv whole { s with files := s.torn count, appending := none } ∧
      s.Advances { s with files := s.torn count, appending := none } := by
  have hnone : ∀ a, (none : Option Appending) = some a → a.Ok whole { s with
      files := s.torn count, appending := none } := fun a ha => by cases ha
  obtain htorn | ⟨chunk, stream, w, hlocated, hw, htorn⟩ := torn_cases s count
  · rw [htorn] at hnone ⊢
    exact ⟨{ h with appending := hnone }, Nat.le_refl _, fun r _ => id⟩
  · obtain ⟨hfits, hsmall, hmatches⟩ := h.appending _ hlocated
    have hplan := plan_spec (h.holds hmatches).1 hfits.toPartOf
      (received_eq hmatches ▸ hfits.offset_le) hsmall
    rw [hw] at hplan
    rw [htorn] at hnone ⊢
    exact ⟨⟨h.stored_write hmatches hplan count, h.named, h.posted, h.receipts, h.upload, hnone⟩,
      Nat.le_refl _, fun r _ => apply_isSome w count s.files r.path⟩

theorem record_cases (s : Shipping) (chunk : RunnerOutputChunk) (stream : Stream) (path : String)
    (size : ℕ) (authorized : Except RegistryError Unit) :
    (∃ result, result ≠ .ok true ∧ s.record chunk stream path size authorized =
        { s with appending := some (.recorded chunk stream path result) }) ∨
      s.record chunk stream path size authorized =
        { s with
          row := some ⟨stream.id, path, size, chunk.finished, max stream.received chunk.stop⟩
          appending := some (.recorded chunk stream path (.ok true))
          closedByChunk := s.closedByChunk || chunk.finished } := by
  unfold Shipping.record
  split
  · exact .inl ⟨_, by simp, rfl⟩
  · next updated row' hrecorded =>
    obtain ⟨-, -, hrecorded⟩ := bind_eq_ok hrecorded
    obtain ⟨rfl, rfl⟩ | ⟨rfl, rfl⟩ := recordOutput_ok hrecorded
    · exact .inr rfl
    · exact .inl ⟨.ok false, by simp, by simp⟩

theorem record_inv (h : s.Inv whole) {path : String} {size : ℕ}
    (hwritten : s.appending = some (.written chunk stream path size))
    (authorized : Except RegistryError Unit) :
    (s.record chunk stream path size authorized).Inv whole ∧
      s.Advances (s.record chunk stream path size authorized) := by
  obtain ⟨-, hmatches, hholds, hbound, hpath⟩ := h.appending _ hwritten
  have hreceived := received_eq hmatches
  obtain ⟨-, -, hnamed⟩ := h.holds hmatches
  obtain ⟨result, hresult, hleft⟩ | hwrites := record_cases s chunk stream path size authorized
  · rw [hleft]
    refine ⟨{ h with appending := fun a ha => ?_ }, Nat.le_refl _, fun r _ => id⟩
    cases ha
    refine ⟨Nat.le_of_eq hreceived.symm, ?_⟩
    split
    · exact absurd rfl hresult
    · exact fun r hr => (hmatches.of_some hr).2.1
  · have hgrows : s.received ≤ max stream.received chunk.stop := hreceived ▸ Nat.le_max_left _ _
    rw [hwrites]
    refine ⟨⟨?_, ?_, ?_, ?_, h.upload.mono hgrows, ?_⟩, hgrows, fun r _ => id⟩
    · intro r hr
      cases hr
      exact ⟨hholds, hbound⟩
    · intro r hr
      cases hr
      obtain rfl | rfl := hpath
      · exact hnamed.mono (Nat.le_max_left _ _)
      · exact .inr ⟨_, Nat.le_max_right _ _, rfl⟩
    · exact fun c hc => (h.posted c hc).mono hgrows
    · exact fun p hp => ⟨Nat.le_trans (h.receipts p hp).1 hgrows, (h.receipts p hp).2⟩
    · intro a ha
      cases ha
      refine ⟨Nat.le_max_left _ _, Nat.le_max_right _ _, fun r hr => ?_⟩
      cases hr
      rfl

theorem leftover_ne (h : s.Inv whole) {path old : String} {result : Except RegistryError Bool}
    (hrecorded : s.appending = some (.recorded chunk stream path result))
    (hold : leftover stream path result = some old) {r : OutputRow} (hr : s.row = some r) :
    r.path ≠ old := by
  obtain ⟨-, hrow⟩ := h.appending _ hrecorded
  obtain ⟨hmoved, hold⟩ := Option.ite_none_left_eq_some.mp hold
  split at hold
  · cases hold
    rw [hrow.2 r hr]
    exact hmoved
  · next hfailed =>
    cases hold
    have hstays : r.path = stream.path := by
      split at hrow
      · exact absurd rfl hfailed
      · exact hrow r hr
    rw [hstays]
    exact fun hsame => hmoved hsame.symm

theorem reply_inv (h : s.Inv whole) {path : String} {result : Except RegistryError Bool}
    (hrecorded : s.appending = some (.recorded chunk stream path result)) :
    (s.reply chunk stream path result).Inv whole ∧
      s.Advances (s.reply chunk stream path result) := by
  have hfile : ∀ r, s.row = some r →
      (s.reply chunk stream path result).files r.path = s.files r.path := by
    intro r hr
    unfold Shipping.reply
    cases hold : leftover stream path result with
    | none => rfl
    | some old => exact Function.update_of_ne (leftover_ne h hrecorded hold hr) _ _
  obtain ⟨hstream, hrow⟩ := h.appending _ hrecorded
  refine ⟨⟨fun r hr => ?_, h.named, h.posted, ?_, h.upload, ?_⟩, Nat.le_refl _, fun r hr => ?_⟩
  · rw [hfile r hr]
    exact h.stored r hr
  · intro p hp
    cases result with
    | error e => exact h.receipts p hp
    | ok updated =>
      rcases List.mem_append.mp hp with hp | hp
      · exact h.receipts p hp
      · obtain rfl := List.mem_singleton.mp hp
        cases updated with
        | true => exact ⟨Nat.max_le.mpr ⟨hstream, hrow.1⟩, fun _ => Nat.le_max_right _ _⟩
        | false => exact ⟨hstream, fun hopen => by cases hopen⟩
  · intro a ha
    cases ha
  · rw [hfile r hr]
    exact id

theorem closeStale_inv (h : s.Inv whole) :
    Shipping.Inv whole { s with row := s.row.map fun r => { r with complete := true } } ∧
      s.Advances { s with row := s.row.map fun r => { r with complete := true } } := by
  have hreceived : Shipping.received { s with
      row := s.row.map fun r => { r with complete := true } } = s.received := by
    cases hrow : s.row <;> simp [Shipping.received, hrow]
  have hrow : ∀ r, s.row.map (fun r => { r with complete := true }) = some r →
      ∃ r', s.row = some r' ∧ r = { r' with complete := true } := by
    intro r hr
    obtain ⟨r', hr', rfl⟩ := Option.map_eq_some_iff.mp hr
    exact ⟨r', hr', rfl⟩
  refine ⟨⟨?_, ?_, ?_, ?_, ?_, ?_⟩, Nat.le_of_eq hreceived.symm, fun r _ => id⟩
  · intro r hr
    obtain ⟨r', hr', rfl⟩ := hrow r hr
    exact h.stored r' hr'
  · intro r hr
    obtain ⟨r', hr', rfl⟩ := hrow r hr
    exact h.named r' hr'
  · rw [hreceived]
    exact h.posted
  · rw [hreceived]
    exact h.receipts
  · rw [hreceived]
    exact h.upload
  · intro a ha
    have hok := h.appending a ha
    cases a with
    | located chunk stream =>
      obtain ⟨hfits, hsmall, hmatches⟩ := hok
      exact ⟨hreceived ▸ hfits, hsmall, hmatches.closed⟩
    | written chunk stream path size =>
      obtain ⟨hfits, hmatches, hholds⟩ := hok
      exact ⟨hreceived ▸ hfits, hmatches.closed, hholds⟩
    | recorded chunk stream path result =>
      obtain ⟨hstream, hresult⟩ := hok
      refine ⟨hreceived ▸ hstream, ?_⟩
      split at hresult
      · refine ⟨hreceived ▸ hresult.1, fun r hr => ?_⟩
        obtain ⟨r', hr', rfl⟩ := hrow r hr
        exact hresult.2 r' hr'
      · intro r hr
        obtain ⟨r', hr', rfl⟩ := hrow r hr
        exact hresult r' hr'

/-! ## One step of the system -/

theorem Shipping.Inv.withUpload (h : s.Inv whole) {u : Upload} (hu : u.Ok whole s.received) :
    Shipping.Inv whole { s with upload := u } ∧ s.Advances { s with upload := u } :=
  ⟨{ h with upload := hu, appending := h.appending }, Nat.le_refl _, fun _ _ => id⟩

/-- **Every step keeps the invariant**, loses nothing received and deletes no file of the row. -/
theorem step_inv {a : ShippingStep} (hstep : s.step whole a = some t) (h : s.Inv whole) :
    t.Inv whole ∧ s.Advances t := by
  cases a with
  | follow =>
    obtain ⟨-, ht⟩ := Option.ite_none_right_eq_some.mp hstep
    cases ht
    exact h.withUpload trivial
  | post =>
    obtain ⟨chunk, hchunk, rfl⟩ := Option.map_eq_some_iff.mp hstep
    refine ⟨{ h with posted := fun c hc => ?_, appending := h.appending }, Nat.le_refl _,
      fun r _ => id⟩
    rcases List.mem_append.mp hc with hc | hc
    · exact h.posted c hc
    · obtain rfl := List.mem_singleton.mp hc
      exact h.upload.fits hchunk
  | take receipt =>
    obtain ⟨hreceipt, ht⟩ := Option.ite_none_right_eq_some.mp hstep
    cases ht
    obtain ⟨chunk, hchunk, hmem⟩ := (Option.any_eq_true _ _).mp hreceipt
    obtain ⟨hreceived, hcovers⟩ := h.receipts _ (of_decide_eq_true hmem)
    exact h.withUpload (take_ok h.upload hchunk hreceived hcovers)
  | refused =>
    obtain ⟨chunk, -, rfl⟩ := Option.map_eq_some_iff.mp hstep
    exact h.withUpload trivial
  | restart =>
    cases hstep
    exact h.withUpload trivial
  | read count =>
    simp only [Shipping.step] at hstep
    split at hstep
    · next position acknowledged buffer hupload =>
      obtain ⟨hcount, ht⟩ := Option.ite_none_right_eq_some.mp hstep
      cases ht
      exact h.withUpload (read_ok (hupload ▸ h.upload) hcount.2.2)
    · cases hstep
  | window =>
    simp only [Shipping.step] at hstep
    split at hstep
    · next position acknowledged buffer hupload =>
      obtain ⟨-, ht⟩ := Option.ite_none_left_eq_some.mp hstep
      cases ht
      exact h.withUpload (flush_ok (hupload ▸ h.upload) false)
    · cases hstep
  | readEnd =>
    simp only [Shipping.step] at hstep
    split at hstep
    · next position acknowledged buffer hupload =>
      obtain ⟨-, ht⟩ := Option.ite_none_right_eq_some.mp hstep
      cases ht
      exact h.withUpload (flush_ok (hupload ▸ h.upload) true)
    · cases hstep
  | readError =>
    simp only [Shipping.step] at hstep
    split at hstep
    · next position acknowledged buffer hupload =>
      cases hstep
      exact h.withUpload (flush_ok (hupload ▸ h.upload) true)
    · cases hstep
  | accept chunk newId authorized =>
    obtain ⟨⟨hposted, -, hcheck, -⟩, ht⟩ := Option.ite_none_right_eq_some.mp hstep
    cases ht
    exact accept_inv h hposted hcheck newId
  | write =>
    simp only [Shipping.step] at hstep
    split at hstep
    · next hlocated => exact write_inv h hlocated hstep
    · cases hstep
  | record authorized =>
    simp only [Shipping.step] at hstep
    split at hstep
    · next hwritten =>
      cases hstep
      exact record_inv h hwritten authorized
    · cases hstep
  | reply =>
    simp only [Shipping.step] at hstep
    split at hstep
    · next hrecorded =>
      cases hstep
      exact reply_inv h hrecorded
    · cases hstep
  | abort count =>
    cases hstep
    exact abort_inv h count
  | closeStale =>
    cases hstep
    exact closeStale_inv h

end Append

/-! ## The end of the output -/

def Appending.chunk : Appending → RunnerOutputChunk
  | .located chunk _ | .written chunk _ _ _ | .recorded chunk _ _ _ => chunk

def EndsWhole (whole : List Byte) (chunk : RunnerOutputChunk) : Prop :=
  chunk.finished = true → chunk.stop = whole.length

/-- Only the end of the output finishes the stream. -/
structure Shipping.Ends (whole : List Byte) (s : Shipping) : Prop where
  posted : ∀ chunk ∈ s.posted, EndsWhole whole chunk
  upload : ∀ chunk, s.upload.chunk = some chunk → EndsWhole whole chunk
  appending : ∀ a, s.appending = some a → EndsWhole whole a.chunk
  closed : s.closedByChunk = true → s.received = whole.length

section Ends

variable {whole : List Byte} {s t : Shipping}

theorem Shipping.Inv.received_le (h : s.Inv whole) : s.received ≤ whole.length := by
  unfold Shipping.received
  cases hrow : s.row with
  | none => exact Nat.zero_le _
  | some r => exact (h.stored r hrow).1.received_le

theorem Shipping.Ends.stays (h : s.Ends whole) (ht : t.Inv whole) (hgrows : s.received ≤ t.received)
    (hclosed : s.closedByChunk = true) : t.received = whole.length :=
  Nat.le_antisymm ht.received_le (h.closed hclosed ▸ hgrows)

theorem flush_chunk {position acknowledged : ℕ} {buffer : List Byte} {ended : Bool}
    {chunk : RunnerOutputChunk}
    (h : (flush position acknowledged buffer ended).chunk = some chunk) :
    chunk.finished = ended ∧ chunk.stop = position + buffer.length := by
  unfold flush at h
  simp only at h
  split at h
  · cases h
    refine ⟨rfl, ?_⟩
    simp only [RunnerOutputChunk.stop, List.length_drop]
    omega
  · cases h

theorem gather_chunk {position acknowledged : ℕ} {buffer : List Byte} {chunk : RunnerOutputChunk}
    (h : (gather position acknowledged buffer).chunk = some chunk) : chunk.finished = false := by
  unfold gather at h
  split at h
  · cases h
  · exact (flush_chunk h).1

theorem take_chunk (u : Upload) (receipt : RunnerOutputReceipt) {chunk : RunnerOutputChunk}
    (hchunk : u.chunk.isSome) : (u.take receipt).chunk ≠ some chunk := by
  cases u with
  | asking | sending _ _ => cases hfinished : receipt.finished <;> simp [Upload.take, hfinished,
      Upload.chunk]
  | idle | gathering _ _ _ | ended => cases hchunk

/-- **Every step but an error of the reader** keeps the end of the output for last. -/
theorem step_ends {a : ShippingStep} (hread : a ≠ .readError) (hstep : s.step whole a = some t)
    (hinv : s.Inv whole) (h : s.Ends whole) : t.Ends whole := by
  obtain ⟨htinv, hadvances⟩ := step_inv hstep hinv
  have hstays := h.stays htinv hadvances.received_le
  have hupload : ∀ u : Upload, (∀ chunk, u.chunk = some chunk → EndsWhole whole chunk) →
      Shipping.Ends whole { s with upload := u } := fun u hu => { h with upload := hu }
  cases a with
  | follow =>
    obtain ⟨-, ht⟩ := Option.ite_none_right_eq_some.mp hstep
    cases ht
    refine hupload _ fun chunk hchunk hfinished => ?_
    cases hchunk
    cases hfinished
  | post =>
    obtain ⟨chunk, hchunk, rfl⟩ := Option.map_eq_some_iff.mp hstep
    refine { h with posted := fun c hc => ?_ }
    rcases List.mem_append.mp hc with hc | hc
    · exact h.posted c hc
    · obtain rfl := List.mem_singleton.mp hc
      exact h.upload c hchunk
  | take receipt =>
    obtain ⟨hreceipt, ht⟩ := Option.ite_none_right_eq_some.mp hstep
    cases ht
    obtain ⟨chunk, hchunk, -⟩ := (Option.any_eq_true _ _).mp hreceipt
    refine hupload _ fun c hc => absurd hc (take_chunk _ receipt ?_)
    rw [hchunk, Option.isSome_some]
  | refused =>
    obtain ⟨chunk, -, rfl⟩ := Option.map_eq_some_iff.mp hstep
    exact hupload _ fun c hc => by cases hc
  | restart =>
    cases hstep
    exact hupload _ fun c hc => by cases hc
  | read count =>
    simp only [Shipping.step] at hstep
    split at hstep
    · obtain ⟨-, ht⟩ := Option.ite_none_right_eq_some.mp hstep
      cases ht
      refine hupload _ fun c hc hfinished => ?_
      rw [gather_chunk hc] at hfinished
      cases hfinished
    · cases hstep
  | window =>
    simp only [Shipping.step] at hstep
    split at hstep
    · obtain ⟨-, ht⟩ := Option.ite_none_left_eq_some.mp hstep
      cases ht
      refine hupload _ fun c hc hfinished => ?_
      rw [(flush_chunk hc).1] at hfinished
      cases hfinished
    · cases hstep
  | readEnd =>
    simp only [Shipping.step] at hstep
    split at hstep
    · obtain ⟨hend, ht⟩ := Option.ite_none_right_eq_some.mp hstep
      cases ht
      exact hupload _ fun c hc _ => (flush_chunk hc).2.trans hend
    · cases hstep
  | readError => exact absurd rfl hread
  | accept chunk newId authorized =>
    obtain ⟨⟨hposted, -⟩, ht⟩ := Option.ite_none_right_eq_some.mp hstep
    cases ht
    unfold Shipping.accept
    split
    · exact { h with }
    · refine { h with appending := fun a ha => ?_ }
      cases ha
      exact h.posted chunk hposted
  | write =>
    simp only [Shipping.step] at hstep
    split at hstep
    · next chunk stream hlocated =>
      have hchunk := h.appending _ hlocated
      unfold Shipping.write at hstep
      split at hstep
      · cases hstep
        exact { h with appending := fun a ha => by cases ha; exact hchunk }
      · cases hstep
        exact { h with appending := fun a ha => by cases ha; exact hchunk }
      · cases hstep
    · cases hstep
  | record authorized =>
    simp only [Shipping.step] at hstep
    split at hstep
    · next chunk stream path size hwritten =>
      cases hstep
      have hchunk := h.appending _ hwritten
      obtain ⟨result, -, hleft⟩ | hwrites := record_cases s chunk stream path size authorized
      · rw [hleft]
        exact { h with appending := fun a ha => by cases ha; exact hchunk }
      · rw [hwrites] at hstays htinv ⊢
        refine ⟨h.posted, h.upload, fun a ha => by cases ha; exact hchunk, fun hclosed => ?_⟩
        rcases (Bool.or_eq_true _ _).mp hclosed with hclosed | hfinished
        · exact hstays hclosed
        · refine Nat.le_antisymm htinv.received_le ?_
          rw [← hchunk hfinished]
          exact Nat.le_max_right _ _
    · cases hstep
  | reply =>
    simp only [Shipping.step] at hstep
    split at hstep
    · cases hstep
      exact { h with appending := fun a ha => by cases ha }
    · cases hstep
  | abort count =>
    cases hstep
    exact { h with appending := fun a ha => by cases ha }
  | closeStale =>
    cases hstep
    exact { h with closed := hstays }

end Ends

theorem start_inv (whole : List Byte) (files : Files) :
    (Shipping.start files).Inv whole ∧ (Shipping.start files).Ends whole := by
  constructor
  · refine ⟨?_, ?_, ?_, ?_, trivial, ?_⟩ <;> intro x hx <;> cases hx
  · refine ⟨?_, ?_, ?_, fun hclosed => ?_⟩
    · intro x hx
      cases hx
    · intro x hx
      cases hx
    · intro x hx
      cases hx
    · cases hclosed

/-- **The output is stored once and in order**, as long as no error of the reader was taken for the
end. -/
theorem output_stored_once (whole : List Byte) (files : Files) (actions : List ShippingStep)
    (s : Shipping) (h : (shipping whole).Run (.start files) actions s) :
    s.Stored whole ∧
      (∀ a t, (shipping whole).step s a = some t → s.Advances t) ∧
      ((shipping whole).Runs (fun _ a => a ≠ .readError) (.start files) actions s →
        s.closedByChunk = true → s.received = whole.length) := by
  obtain ⟨hstart, hends⟩ := start_inv whole files
  have hinv : s.Inv whole := h.inv (fun _ _ _ _ hstep hs => (step_inv hstep hs).1) hstart
  refine ⟨hinv.stored, fun a t hstep => (step_inv hstep hinv).2, fun hruns => ?_⟩
  have hboth : s.Inv whole ∧ s.Ends whole := by
    refine hruns.inv (I := fun s => s.Inv whole ∧ s.Ends whole) ?_ ⟨hstart, hends⟩
    intro _ _ _ hok hstep hs
    exact ⟨(step_inv hstep hs.1).1, step_ends hok hstep hs.1 hs.2⟩
  exact hboth.2.closed

namespace Sample

def append (chunk : RunnerOutputChunk) : List ShippingStep :=
  [.post, .accept chunk "s" (.ok ()), .write, .record (.ok ()), .reply]

/-- The upload asks, reads one byte and posts what follows up to `last`, which comes of `ending`. -/
def upload (ending : List ShippingStep) (last : RunnerOutputChunk) : List ShippingStep :=
  .follow :: append ⟨0, [], false⟩ ++ [.take ⟨0, false⟩, .read 1] ++ ending ++ append last

end Sample

theorem output_stored_once_sample : ∃ s,
    (shipping [97, 98]).Run (.start fun _ => none)
        (Sample.upload [.read 1, .readEnd] ⟨0, [97, 98], true⟩) s ∧
      s.Stored [97, 98] ∧ s.closedByChunk = true ∧ s.received = 2 := by
  have hexec : ((shipping [97, 98]).execIf (fun _ a => a ≠ .readError) (.start fun _ => none)
      (Sample.upload [.read 1, .readEnd] ⟨0, [97, 98], true⟩)).any
      (fun s => s.closedByChunk) = true := by
    decide +kernel
  obtain ⟨s, hs, hclosed⟩ := (Option.any_eq_true _ _).mp hexec
  have hruns := Machine.runs_of_execIf hs
  have hrun := hruns.mono fun _ _ _ => trivial
  obtain ⟨hstored, -, hwhole⟩ := output_stored_once _ _ _ s hrun
  exact ⟨s, hrun, hstored, hclosed, hwhole hruns hclosed⟩

/-- The reader fails after the first of two bytes, and the stream is closed without the second. -/
theorem read_error_truncates : ∃ s,
    (shipping [97, 98]).Run (.start fun _ => none)
        (Sample.upload [.readError] ⟨0, [97], true⟩) s ∧
      s.closedByChunk = true ∧ s.received = 1 ∧
      s.row.map OutputRow.complete = some true ∧ s.upload = .sending 1 ⟨0, [97], true⟩ := by
  exact Machine.exists_run (by decide +kernel)

end Gridops.HostAgent
