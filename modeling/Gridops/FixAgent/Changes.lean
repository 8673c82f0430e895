import Gridops.FixAgent.Git

/-!
# Reading the agent's edits back

`changed_paths` stages everything and parses git's list of differences; `collect_changes` then reads
each changed file from the index, as base64 through the manager's exec endpoint, and enforces the
limits on a fix: 60 files and 4 MiB.

The script that reads a file asks for an output limit that fits a file of 4 MiB, but the manager
clamps the limit to 1 MiB of output, which is 768 KiB of contents (`collectChanges_iff`).
-/

namespace Gridops.FixAgent

open Lib

def maxChangedFiles : ℕ := 60
def maxChangedBytes : ℕ := 4 * 1024 * 1024

inductive ChangeKind where
  | added | modified | deleted
deriving DecidableEq

structure ChangedPath where
  path : Text
  kind : ChangeKind
  mode : Text
deriving DecidableEq

structure FileChange where
  path : Text
  kind : ChangeKind
  mode : Text
  contents : Option Bytes
deriving DecidableEq

/-- The kind of change with this first character of the status. -/
def changeKind (c : Option Char) : Option ChangeKind :=
  if c = some 'A' then some .added
  else if c = some 'D' then some .deleted
  else if c = some 'M' ∨ c = some 'T' then some .modified
  else none

def parseFields : List Text → Except String (List ChangedPath)
  | [] => .ok []
  | [_] => .error "diff entry without a path"
  | header :: path :: rest =>
    match (header.dropWhile (· = ':')).splitOn ' ' with
    | [_, newMode, _, _, status] =>
      match changeKind status.head? with
      | some kind => (parseFields rest).map (⟨path, kind, newMode⟩ :: ·)
      | none =>
        .error ("unexpected change status " ++ String.ofList status ++ " for "
          ++ String.ofList path)
    | _ => .error ("unexpected diff entry: " ++ String.ofList header)

def parseRawDiff (raw : Text) : Except String (List ChangedPath) :=
  parseFields ((raw.splitOn nul).filter (· ≠ []))

def changedPaths (s : Sandbox) : Except String (List ChangedPath) :=
  (s.exec ((ExecRequest.script listChanges 120).withOutputLimit (1024 * 1024))).bind fun output =>
    if output.stdoutTruncated then .error "The agent changed too many files to commit."
    else (output.requireSuccess "Listing changed files").bind parseRawDiff

def readContents (s : Sandbox) (changed : ChangedPath) : Except String (Option Bytes) :=
  if changed.kind = .deleted then .ok none
  else
    let path := String.ofList changed.path
    (s.exec ((ExecRequest.script (readBlob (shellQuote (':' :: changed.path))) 60).withOutputLimit
      (maxChangedBytes / 3 * 4 + 1024))).bind fun output =>
        if output.stdoutTruncated then .error (path ++ " is too large to include in a fix.")
        else (output.requireSuccess ("Reading " ++ path)).bind fun encoded =>
          match Base64.decodePadded (trim encoded) with
          | none => .error ("decode " ++ path)
          | some bytes => .ok (some bytes)

def collectFrom (s : Sandbox) : ℕ → List ChangedPath → Except String (List FileChange)
  | _, [] => .ok []
  | total, changed :: rest =>
    (readContents s changed).bind fun contents =>
      let total := total + (contents.getD []).length
      if contents.isSome ∧ total > maxChangedBytes then
        .error "The agent's changes exceed the 4 MiB limit for a fix."
      else
        (collectFrom s total rest).map (⟨changed.path, changed.kind, changed.mode, contents⟩ :: ·)

def collectChanges (s : Sandbox) : Except String (List FileChange) :=
  (changedPaths s).bind fun paths =>
    if paths.length > maxChangedFiles then
      .error ("The agent changed " ++ paths.length.repr ++ " files; fixes are limited to 60.")
    else collectFrom s 0 paths

/-! ## What the parser makes of git's list -/

def DiffStatus.kind : DiffStatus → ChangeKind
  | .A => .added
  | .D => .deleted
  | .M | .T => .modified

def Delta.changed (l : Lossy) (d : Delta) : ChangedPath :=
  ⟨l.decode d.path.bytes, d.status.kind, modeText d.new⟩

theorem changeKind_char (st : DiffStatus) : changeKind (some st.char) = some st.kind := by
  cases st <;> rfl

structure RawEntry where
  oldMode : Text
  newMode : Text
  oldOid : Text
  newOid : Text
  status : DiffStatus
  path : Text
  hex : ∀ c ∈ oldMode ++ newMode ++ oldOid ++ newOid, c ∈ "0123456789abcdef".toList
  nonempty : path ≠ []
  nul_free : nul ∉ path

namespace RawEntry

def header (e : RawEntry) : Text :=
  [':'] ++ e.oldMode ++ [' '] ++ e.newMode ++ [' '] ++ e.oldOid ++ [' '] ++ e.newOid ++
    [' ', e.status.char]

def changed (e : RawEntry) : ChangedPath := ⟨e.path, e.status.kind, e.newMode⟩

def encode (es : List RawEntry) : Text := es.flatMap fun e => e.header ++ [nul] ++ e.path ++ [nul]

theorem split_header (e : RawEntry) : (e.header.dropWhile (· = ':')).splitOn ' ' =
    [e.oldMode, e.newMode, e.oldOid, e.newOid, [e.status.char]] := by
  have hall : ∀ c ∈ "0123456789abcdef".toList, c ≠ ' ' ∧ c ≠ ':' :=
    List.all_iff_forall_prop.mp (by decide)
  have hchar : ∀ c ∈ e.oldMode ++ e.newMode ++ e.oldOid ++ e.newOid, c ≠ ' ' ∧ c ≠ ':' :=
    fun c hc => hall c (e.hex c hc)
  have hstrip : e.header.dropWhile (· = ':') = e.oldMode ++ ' ' :: (e.newMode ++ ' ' ::
      (e.oldOid ++ ' ' :: (e.newOid ++ ' ' :: [e.status.char]))) := by
    simp only [header, List.append_assoc, List.cons_append, List.nil_append]
    rw [List.dropWhile_cons_of_pos (by decide)]
    cases hold : e.oldMode with
    | nil => rfl
    | cons c rest =>
      have hc : c ≠ ':' := (hchar c (by simp [hold])).2
      rw [List.cons_append, List.dropWhile_cons_of_neg (by simpa using hc)]
  have hstatus : [e.status.char].splitOn ' ' = [[e.status.char]] := by
    cases e.status <;> rfl
  rw [hstrip, List.splitOn_append_cons_self_of_not_mem, List.splitOn_append_cons_self_of_not_mem,
    List.splitOn_append_cons_self_of_not_mem, List.splitOn_append_cons_self_of_not_mem, hstatus]
  all_goals exact fun h => (hchar _ (by simp [h])).1 rfl

theorem fields_encode (es : List RawEntry) :
    ((encode es).splitOn nul).filter (· ≠ []) = es.flatMap fun e => [e.header, e.path] := by
  induction es with
  | nil => rfl
  | cons e es ih =>
    have hheader : nul ∉ e.header := fun h => (header_char e.hex h).2 rfl
    have hne : e.header ≠ [] := List.cons_ne_nil _ _
    have hcons : encode (e :: es) = e.header ++ nul :: (e.path ++ nul :: encode es) := by
      simp only [encode, List.flatMap_cons, List.append_assoc, List.cons_append, List.nil_append]
    rw [hcons, List.splitOn_append_cons_self_of_not_mem hheader,
      List.splitOn_append_cons_self_of_not_mem e.nul_free, List.flatMap_cons, ← ih]
    simp [hne, e.nonempty]

theorem parseFields_entries (es : List RawEntry) :
    parseFields (es.flatMap fun e => [e.header, e.path]) = .ok (es.map changed) := by
  induction es with
  | nil => rfl
  | cons e es ih =>
    simp only [List.flatMap_cons, List.cons_append, List.nil_append, parseFields, split_header,
      List.head?_cons, changeKind_char, ih]
    rfl

/-- **What git writes is read back**, whatever the paths contain beside a NUL. -/
theorem parseRawDiff_encode (es : List RawEntry) :
    parseRawDiff (encode es) = .ok (es.map changed) := by
  rw [parseRawDiff, fields_encode, parseFields_entries]

end RawEntry

def Delta.raw (l : Lossy) (d : Delta) : RawEntry where
  oldMode := modeText d.old
  newMode := modeText d.new
  oldOid := oidText d.old
  newOid := oidText d.new
  status := d.status
  path := l.decode d.path.bytes
  hex := d.hex
  nonempty := l.decode_ne_nil d.path.nonempty
  nul_free := l.nul_notMem d.path.nul_free

theorem decode_rawDiff (l : Lossy) (ds : List Delta) :
    l.decode (rawDiff ds) = RawEntry.encode (ds.map (Delta.raw l)) := by
  induction ds with
  | nil => exact l.decode_utf8 []
  | cons d ds ih =>
    rw [rawDiff_cons, l.decode_nul, l.decode_utf8, l.decode_nul, ih]
    simp [RawEntry.encode, RawEntry.header, Delta.raw, Delta.header]

theorem parseRawDiff_rawDiff (l : Lossy) (ds : List Delta) :
    parseRawDiff (l.decode (rawDiff ds)) = .ok (ds.map (Delta.changed l)) := by
  rw [decode_rawDiff, parseRawDiff, RawEntry.fields_encode, RawEntry.parseFields_entries,
    List.map_map]
  rfl

variable {s : Sandbox} {r : Repo} {blob : Oid → Option Bytes}

theorem changedPaths_eq (h : s.Serves r blob)
    (hfits : (rawDiff (diff r.head r.addAll)).length ≤ 1048576) :
    changedPaths s = .ok ((diff r.head r.addAll).map (Delta.changed s.lossy)) := by
  have hscript : nul ∉ listChanges ∧ (utf8 listChanges).length ≤ 262000 := by decide
  obtain ⟨o, hexec, htruncated, hout⟩ := h.listing.exec_ok hscript.1 hscript.2 120 (1024 * 1024)
  have hbudget : clampMaxOutputBytes (some ((1024 * 1024 : ℕ) : Int)) = 1048576 := rfl
  rw [hbudget] at htruncated hout
  rw [decide_eq_false (Nat.not_lt.mpr hfits)] at htruncated
  rw [changedPaths, hexec]
  simp only [Except.bind, htruncated, hout hfits]
  exact parseRawDiff_rawDiff s.lossy _

/-! ## What is read of a file -/

theorem length_utf8_shellQuote (t : Text) :
    (utf8 (shellQuote t)).length ≤ 4 * (utf8 t).length + 2 := by
  have hone : (utf8 ['\'']).length = 1 := by decide
  have hfour : (utf8 ['\'', '\\', '\'', '\'']).length = 4 := by decide
  have hbody : (utf8 (t.flatMap fun c =>
      if c = '\'' then ['\'', '\\', '\'', '\''] else [c])).length ≤ 4 * (utf8 t).length := by
    induction t with
    | nil => exact Nat.le_refl _
    | cons c t ih =>
      rw [List.flatMap_cons, utf8_append, utf8_cons, List.length_append, List.length_append]
      split
      · next hc =>
        rw [String.length_utf8EncodeChar, hc]
        have : ('\'').utf8Size = 1 := by decide
        omega
      · rw [utf8_cons, List.length_append]
        have : (utf8 []).length = 0 := rfl
        omega
  rw [shellQuote, utf8_append, utf8_append, List.length_append, List.length_append]
  omega

theorem nul_notMem_shellQuote {t : Text} (h : nul ∉ t) : nul ∉ shellQuote t := by
  have hplain : nul ∉ ['\'', '\\', '\'', '\''] := by decide
  have hquote : nul ∉ ['\''] := by decide
  intro hmem
  rw [shellQuote, List.mem_append, List.mem_append, List.mem_flatMap] at hmem
  rcases hmem with (hmem | ⟨c, hc, hmem⟩) | hmem
  · exact hquote hmem
  · split at hmem
    · exact hplain hmem
    · rw [List.mem_singleton] at hmem
      exact h (hmem ▸ hc)
  · exact hquote hmem

theorem trim_encodePadded (bytes : Bytes) :
    trim (Base64.encodePadded bytes) = Base64.encodePadded bytes := by
  have hsolid : ∀ c ∈ Base64.encodePadded bytes, isWhitespace c = false := by
    intro c hc
    obtain ⟨n, hn, rfl⟩ | rfl := Base64.mem_encodePadded hc
    · have hall : ∀ n < 64, isWhitespace (Base64.toStandard (Base64.digit n)) = false := by decide
      exact hall n hn
    · decide
  have hdrop : ∀ t : Text, (∀ c ∈ t, isWhitespace c = false) → t.dropWhile isWhitespace = t := by
    intro t ht
    cases t with
    | nil => rfl
    | cons c t => exact List.dropWhile_cons_of_neg (by simp [ht c List.mem_cons_self])
  rw [trim, hdrop _ hsolid, hdrop _ fun c hc => hsolid c (List.mem_reverse.mp hc),
    List.reverse_reverse]

theorem length_utf8_encodePadded (bytes : Bytes) :
    (utf8 (Base64.encodePadded bytes)).length = 4 * ((bytes.length + 2) / 3) := by
  rw [length_utf8_of_ascii, Base64.length_encodePadded]
  intro c hc
  obtain ⟨n, hn, rfl⟩ | rfl := Base64.mem_encodePadded hc
  · exact (Base64.toStandard_digit n hn).2.2.1
  · decide

theorem readContents_eq {c : ChangedPath} (h : s.Serves r blob) (hnul : nul ∉ c.path)
    (hsize : (utf8 c.path).length < 4096) (hkind : c.kind ≠ .deleted) (bytes : Bytes) :
    readContents s c = .ok (some bytes) ↔
      catFile r.addAll blob (utf8 c.path) = bytes ∧ bytes.length ≤ 786432 := by
  have hword := readWord_shellQuote (':' :: c.path)
  have hquoted : nul ∉ shellQuote (':' :: c.path) := by
    refine nul_notMem_shellQuote fun hmem => ?_
    obtain heq | hmem := List.mem_cons.mp hmem
    · exact absurd heq (by decide)
    · exact hnul hmem
  have hlength : (utf8 (readBlob (shellQuote (':' :: c.path)))).length ≤ 262000 := by
    have hquote := length_utf8_shellQuote (':' :: c.path)
    have hcolon : (String.utf8EncodeChar ':').length = 1 := by decide
    rw [utf8_cons, List.length_append] at hquote
    rw [length_utf8_readBlob]
    omega
  obtain ⟨o, hexec, htruncated, hout⟩ :=
    (h.reading _ _ hword).exec_ok (nul_notMem_readBlob hquoted) hlength 60
      (maxChangedBytes / 3 * 4 + 1024)
  have hbudget : clampMaxOutputBytes (some ((maxChangedBytes / 3 * 4 + 1024 : ℕ) : Int)) =
      1048576 := rfl
  rw [hbudget, length_utf8_encodePadded] at htruncated hout
  generalize catFile r.addAll blob (utf8 c.path) = x at htruncated hout
  rw [readContents, if_neg hkind, hexec]
  by_cases hfits : 4 * ((x.length + 2) / 3) ≤ 1048576
  · rw [decide_eq_false (Nat.not_lt.mpr hfits)] at htruncated
    simp only [Except.bind, htruncated, Bool.false_eq_true, if_false, hout hfits,
      s.lossy.decode_utf8, trim_encodePadded, Base64.decodePadded_encodePadded, Except.ok.injEq,
      Option.some.injEq]
    refine ⟨fun heq => ⟨heq, ?_⟩, fun heq => heq.1⟩
    rw [← heq]
    omega
  · rw [decide_eq_true (Nat.lt_of_not_le hfits)] at htruncated
    simp only [Except.bind, htruncated]
    refine iff_of_false nofun ?_
    rintro ⟨rfl, hle⟩
    omega

def contentBytes (fs : List FileChange) : ℕ := (fs.map fun f => (f.contents.getD []).length).sum

theorem collectFrom_ok {total : ℕ} {paths : List ChangedPath} {fs : List FileChange}
    (htotal : total ≤ maxChangedBytes) : collectFrom s total paths = .ok fs ↔
      List.Forall₂ (fun c f => f.path = c.path ∧ f.kind = c.kind ∧ f.mode = c.mode ∧
        readContents s c = .ok f.contents) paths fs ∧
      total + contentBytes fs ≤ maxChangedBytes := by
  induction paths generalizing total fs with
  | nil =>
    rw [collectFrom, List.forall₂_nil_left_iff, Except.ok.injEq]
    constructor
    · rintro rfl
      exact ⟨rfl, htotal⟩
    · exact fun h => h.1.symm
  | cons c paths ih =>
    rw [collectFrom]
    cases hread : readContents s c with
    | error e =>
      refine iff_of_false nofun ?_
      rintro ⟨hall, -⟩
      obtain ⟨f, fs, ⟨-, -, -, hok⟩, -, -⟩ := List.forall₂_cons_left_iff.mp hall
      rw [hread] at hok
      cases hok
    | ok contents =>
      -- A list that starts with this file, and the rest from the new total.
      have hcons : (List.Forall₂ (fun c f => f.path = c.path ∧ f.kind = c.kind ∧ f.mode = c.mode ∧
          readContents s c = .ok f.contents) (c :: paths) fs ∧
            total + contentBytes fs ≤ maxChangedBytes) ↔
          ∃ fs', fs = ⟨c.path, c.kind, c.mode, contents⟩ :: fs' ∧
            List.Forall₂ (fun c f => f.path = c.path ∧ f.kind = c.kind ∧ f.mode = c.mode ∧
              readContents s c = .ok f.contents) paths fs' ∧
            total + (contents.getD []).length + contentBytes fs' ≤ maxChangedBytes := by
        rw [List.forall₂_cons_left_iff]
        constructor
        · rintro ⟨⟨⟨path, kind, mode, x⟩, fs', ⟨rfl, rfl, rfl, hx⟩, hall, rfl⟩, hbytes⟩
          rw [hread, Except.ok.injEq] at hx
          subst hx
          refine ⟨fs', rfl, hall, ?_⟩
          rwa [contentBytes, List.map_cons, List.sum_cons, ← Nat.add_assoc] at hbytes
        · rintro ⟨fs', rfl, hall, hbytes⟩
          refine ⟨⟨_, fs', ⟨rfl, rfl, rfl, hread⟩, hall, rfl⟩, ?_⟩
          rwa [contentBytes, List.map_cons, List.sum_cons, ← Nat.add_assoc]
      rw [hcons]
      simp only [Except.bind]
      by_cases hlimit : total + (contents.getD []).length ≤ maxChangedBytes
      · rw [if_neg fun h => Nat.not_lt.mpr hlimit h.2]
        constructor
        · intro hok
          cases hrest : collectFrom s (total + (contents.getD []).length) paths with
          | error e =>
            rw [hrest] at hok
            cases hok
          | ok fs' =>
            rw [hrest] at hok
            cases hok
            exact ⟨fs', rfl, (ih hlimit).mp hrest⟩
        · rintro ⟨fs', rfl, hall⟩
          rw [(ih hlimit).mpr hall]
          rfl
      · have hsome : contents.isSome := by
          cases contents with
          | none => exact absurd htotal hlimit
          | some _ => rfl
        rw [if_pos ⟨hsome, Nat.lt_of_not_le hlimit⟩]
        refine iff_of_false nofun ?_
        omega

/-! ## Which changes are collected -/

/-- Every change under its path, with its kind, mode and new contents. -/
def Collected (r : Repo) (blob : Oid → Option Bytes) (fs : List FileChange) : Prop :=
  List.Forall₂ (fun d f => utf8 f.path = d.path.bytes ∧ f.kind = d.status.kind ∧
    f.mode = modeText d.new ∧ f.contents = d.new.map (Entry.contents blob))
    (diff r.head r.addAll) fs

def changedBytes (blob : Oid → Option Bytes) (ds : List Delta) : ℕ :=
  (ds.map fun d => ((d.new.map (Entry.contents blob)).getD []).length).sum

/-- The path is text, `:<path>` names what has the contents of the new version, and these are at
most 768 KiB. -/
def Delta.Collectable (r : Repo) (blob : Oid → Option Bytes) (d : Delta) : Prop :=
  (∃ t, utf8 t = d.path.bytes) ∧ ∀ e, d.new = some e →
    catFile r.addAll blob d.path.bytes = e.contents blob ∧ (e.contents blob).length ≤ 786432

theorem kind_deleted {old new : Option Entry} {st : DiffStatus} (h : status old new = some st) :
    st.kind = .deleted ↔ new = none := by
  rcases old with _ | old <;> rcases new with _ | new
  · cases h
  · cases h
    simp [DiffStatus.kind]
  · cases h
    exact iff_of_true rfl rfl
  · rw [status] at h
    split at h
    · cases h
    · split at h <;> cases h <;> simp [DiffStatus.kind]

theorem readContents_delta {d : Delta} (h : s.Serves r blob)
    (hd : status d.old d.new = some d.status)
    (htext : utf8 (s.lossy.decode d.path.bytes) = d.path.bytes) :
    readContents s (d.changed s.lossy) = .ok (d.new.map (Entry.contents blob)) ↔
      d.Collectable r blob := by
  have hname : ∃ t, utf8 t = d.path.bytes := ⟨_, htext⟩
  cases hnew : d.new with
  | none =>
    have hkind : (d.changed s.lossy).kind = .deleted := (kind_deleted hd).mpr hnew
    rw [readContents, if_pos hkind]
    exact iff_of_true rfl ⟨hname, fun e he => by rw [hnew] at he; cases he⟩
  | some e =>
    have hkind : (d.changed s.lossy).kind ≠ .deleted := fun hk => by
      rw [(kind_deleted hd).mp hk] at hnew
      cases hnew
    have hread := readContents_eq (c := d.changed s.lossy) h
      (s.lossy.nul_notMem d.path.nul_free)
      (by rw [Delta.changed, htext]; exact d.path.length_lt) hkind (e.contents blob)
    rw [Delta.changed, htext] at hread
    rw [Option.map_some, Delta.changed, hread, Delta.Collectable, hnew]
    constructor
    · rintro hok
      refine ⟨hname, ?_⟩
      rintro e' ⟨⟩
      exact hok
    · exact fun hok => hok.2 e rfl

section

variable {s : Sandbox} {r : Repo} {blob : Oid → Option Bytes} {fs : List FileChange}

/-- Up to 60 files are listed without loss, and then read one by one. -/
theorem collectChanges_eq (h : s.Serves r blob)
    (hfiles : (diff r.head r.addAll).length ≤ maxChangedFiles) :
    collectChanges s = collectFrom s 0 ((diff r.head r.addAll).map (Delta.changed s.lossy)) := by
  have hlisted : (rawDiff (diff r.head r.addAll)).length ≤ 1048576 := by
    have hlength := length_rawDiff (diff r.head r.addAll)
    rw [maxChangedFiles] at hfiles
    omega
  rw [collectChanges, changedPaths_eq h hlisted]
  simp only [Except.bind, List.length_map]
  rw [if_neg (Nat.not_lt.mpr hfiles)]

theorem collectable_of_collected (h : s.Serves r blob)
    (hfiles : (diff r.head r.addAll).length ≤ maxChangedFiles)
    (hok : collectChanges s = .ok fs) (hfs : Collected r blob fs) :
    ∀ d ∈ diff r.head r.addAll, d.Collectable r blob := by
  intro d hd
  rw [collectChanges_eq h hfiles, collectFrom_ok (Nat.zero_le _), List.forall₂_map_left_iff] at hok
  obtain ⟨f, -, ⟨hpath, -, -, hread⟩, htext, -, -, hcontents⟩ :=
    forall₂_mem_both hok.1 hfs hd
  rw [hpath] at htext
  rw [hcontents] at hread
  exact (readContents_delta h (mem_diff.mp hd).2.2 htext).mp hread

theorem collected_of_collectable (h : s.Serves r blob)
    (hfiles : (diff r.head r.addAll).length ≤ maxChangedFiles)
    (hbytes : changedBytes blob (diff r.head r.addAll) ≤ maxChangedBytes)
    (hall : ∀ d ∈ diff r.head r.addAll, d.Collectable r blob) :
    ∃ fs, collectChanges s = .ok fs ∧ Collected r blob fs := by
  have htext : ∀ d ∈ diff r.head r.addAll, utf8 (s.lossy.decode d.path.bytes) = d.path.bytes := by
    intro d hd
    obtain ⟨t, ht⟩ := (hall d hd).1
    rw [← ht, s.lossy.decode_utf8]
  refine ⟨(diff r.head r.addAll).map fun d => ⟨s.lossy.decode d.path.bytes, d.status.kind,
    modeText d.new, d.new.map (Entry.contents blob)⟩, ?_, ?_⟩
  · rw [collectChanges_eq h hfiles, collectFrom_ok (Nat.zero_le _), List.forall₂_map_left_iff,
      List.forall₂_map_right_iff, List.forall₂_same]
    refine ⟨fun d hd => ⟨rfl, rfl, rfl, ?_⟩, ?_⟩
    · exact (readContents_delta h (mem_diff.mp hd).2.2 (htext d hd)).mpr (hall d hd)
    · rw [Nat.zero_add, contentBytes, List.map_map]
      exact hbytes
  · rw [Collected, List.forall₂_map_right_iff, List.forall₂_same]
    exact fun d hd => ⟨htext d hd, rfl, rfl, rfl⟩

/-- **Which change sets within the limits are collected**: those of whose changes every one is
collectable. -/
theorem collectChanges_iff (h : s.Serves r blob)
    (hfiles : (diff r.head r.addAll).length ≤ maxChangedFiles)
    (hbytes : changedBytes blob (diff r.head r.addAll) ≤ maxChangedBytes) :
    (∃ fs, collectChanges s = .ok fs ∧ Collected r blob fs) ↔
      ∀ d ∈ diff r.head r.addAll, d.Collectable r blob :=
  ⟨fun ⟨_, hok, hfs⟩ => collectable_of_collected h hfiles hok hfs,
    collected_of_collectable h hfiles hbytes⟩

end

namespace Sample

def filePath : Path := ⟨[97], by decide, by decide, by decide⟩

def fileOid : Oid := ⟨List.replicate 40 'a', by decide, List.all_iff_forall_prop.mp (by decide)⟩

def oneFile : Repo where
  head := Table.empty
  index := Table.empty
  files := ⟨[(filePath, ⟨.file, fileOid⟩)], by decide⟩
  ignored := fun _ => false

def fileAdded : Delta := ⟨filePath, none, some ⟨.file, fileOid⟩, .A⟩

theorem diff_oneFile : diff oneFile.head oneFile.addAll = [fileAdded] := by decide

end Sample

open Sample

theorem small_file_collected :
    ∃ fs, collectChanges (oneFile.sandbox fun _ => some [104, 105]) = .ok fs ∧
      Collected oneFile (fun _ => some [104, 105]) fs := by
  refine (collectChanges_iff (oneFile.serves _) ?_ ?_).mpr ?_
  · decide
  · decide
  · intro d hd
    rw [List.mem_singleton.mp hd]
    refine ⟨⟨['a'], by decide⟩, ?_⟩
    rintro e ⟨⟩
    exact ⟨by decide, by decide⟩

/-- A file of one byte more than 768 KiB is within the limits of a fix and is not collected. -/
theorem large_file_refused :
    (diff oneFile.head oneFile.addAll).length ≤ maxChangedFiles ∧
    changedBytes (fun _ => some (List.replicate 786433 0)) (diff oneFile.head oneFile.addAll) ≤
      maxChangedBytes ∧
    ¬ ∃ fs, collectChanges (oneFile.sandbox fun _ => some (List.replicate 786433 0)) = .ok fs ∧
      Collected oneFile (fun _ => some (List.replicate 786433 0)) fs := by
  have hfiles : (diff oneFile.head oneFile.addAll).length ≤ maxChangedFiles := by
    decide
  refine ⟨hfiles, ?_, ?_⟩
  · rw [diff_oneFile]
    simp only [changedBytes, fileAdded, Entry.contents, List.map_cons, Option.map_some,
      Option.getD_some, List.length_replicate]
    decide
  · rintro ⟨fs, hok, hfs⟩
    have hd := collectable_of_collected (oneFile.serves _) hfiles hok hfs fileAdded
      (by rw [diff_oneFile]; exact List.mem_singleton.mpr rfl)
    have hlength := (hd.2 _ rfl).2
    simp only [Entry.contents, Option.getD_some, List.length_replicate] at hlength
    omega

end Gridops.FixAgent
