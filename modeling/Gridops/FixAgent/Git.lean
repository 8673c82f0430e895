import Gridops.FixAgent.Exec
import Gridops.Lib.Table
import Gridops.Lib.Base64

/-!
# What git does in the sandbox

The part of git that the agent's harness relies on: trees of entries, `git add -A`, the differences
of two trees as `git diff --raw -z` writes them, and the blob that `git cat-file blob :<path>`
reads. Paths are bytes. They are relative to the root of the checkout, and git opens them as such,
so none is as long as the file system's limit for a path.

`:<n>:<path>` names an entry at stage `n` of a merge, so a path that itself begins with a digit up
to three and a colon is not read under its own name. `git add -A` leaves entries at stage zero
only.
-/

namespace Gridops.FixAgent

open Lib (Table)

@[ext]
structure Path where
  bytes : Bytes
  nonempty : bytes ≠ []
  nul_free : 0 ∉ bytes
  length_lt : bytes.length < 4096
deriving DecidableEq

inductive Mode where
  | file | executable | symlink
  /-- The commit of a repository inside the checkout. -/
  | gitlink
deriving DecidableEq

def Mode.text : Mode → Text
  | .file => "100644".toList
  | .executable => "100755".toList
  | .symlink => "120000".toList
  | .gitlink => "160000".toList

def Mode.sameType : Mode → Mode → Bool
  | .file, .file | .file, .executable | .executable, .file | .executable, .executable => true
  | .symlink, .symlink | .gitlink, .gitlink => true
  | _, _ => false

structure Oid where
  text : Text
  length_eq : text.length = 40
  hex : ∀ c ∈ text, c ∈ "0123456789abcdef".toList
deriving DecidableEq

structure Entry where
  mode : Mode
  oid : Oid
deriving DecidableEq

abbrev Tree := Table (Prod.fst : Path × Entry → Path)

def Tree.get (t : Tree) (p : Path) : Option Entry := (t.find p).map (·.2)

def Tree.paths (t : Tree) : List Path := t.rows.map (·.1)

structure Repo where
  head : Tree
  index : Tree
  files : Tree
  ignored : Path → Bool

/-- `git add -A`: the index follows the files that are tracked or not ignored. -/
def Repo.addAll (r : Repo) : Tree :=
  r.files.retain fun row => (r.index.get row.1).isSome || !r.ignored row.1

/-! ## Differences -/

inductive DiffStatus where
  | A | D | M | T
deriving DecidableEq

def status : Option Entry → Option Entry → Option DiffStatus
  | none, none => none
  | none, some _ => some .A
  | some _, none => some .D
  | some old, some new =>
    if old = new then none else if old.mode.sameType new.mode then some .M else some .T

structure Delta where
  path : Path
  old : Option Entry
  new : Option Entry
  status : DiffStatus
deriving DecidableEq

def delta (old new : Tree) (p : Path) : Option Delta :=
  (status (old.get p) (new.get p)).map fun s => ⟨p, old.get p, new.get p, s⟩

/-- `git diff --no-renames`, in the order of the paths. -/
def diff (old new : Tree) : List Delta :=
  (((old.paths ++ new.paths.filter (· ∉ old.paths)).insertionSort
    fun p q => p.bytes ≤ q.bytes).filterMap (delta old new))

theorem status_eq_none {old new : Option Entry} : status old new = none ↔ old = new := by
  cases old <;> cases new
  · exact iff_of_true rfl rfl
  · exact iff_of_false nofun nofun
  · exact iff_of_false nofun nofun
  · next a b =>
    rw [Option.some.injEq, status]
    by_cases h : a = b
    · exact iff_of_true (if_pos h) h
    · rw [if_neg h]
      exact iff_of_false (by split <;> nofun) h

variable {old new : Tree} {p : Path} {d : Delta} {c : Char}

theorem Tree.mem_paths {t : Tree} : p ∈ t.paths ↔ t.get p ≠ none := by
  rw [get, ne_eq, Option.map_eq_none_iff, paths, List.mem_map]
  constructor
  · rintro ⟨row, hrow, rfl⟩ hnone
    rw [Table.find_key hrow] at hnone
    cases hnone
  · intro hsome
    obtain ⟨row, hrow⟩ := Option.ne_none_iff_exists'.mp hsome
    exact ⟨row, Table.mem_of_find hrow, Table.key_of_find hrow⟩

theorem delta_eq_some : delta old new p = some d ↔
    d.path = p ∧ d.old = old.get p ∧ d.new = new.get p ∧
      status (old.get p) (new.get p) = some d.status := by
  rw [delta, Option.map_eq_some_iff]
  constructor
  · rintro ⟨s, hs, rfl⟩
    exact ⟨rfl, rfl, rfl, hs⟩
  · rintro ⟨rfl, hold, hnew, hs⟩
    exact ⟨d.status, hs, by rw [← hold, ← hnew]⟩

theorem mem_diff : d ∈ diff old new ↔
    d.old = old.get d.path ∧ d.new = new.get d.path ∧ status d.old d.new = some d.status := by
  rw [diff, List.mem_filterMap]
  constructor
  · rintro ⟨p, -, hd⟩
    obtain ⟨rfl, hold, hnew, hs⟩ := delta_eq_some.mp hd
    exact ⟨hold, hnew, by rw [hold, hnew, hs]⟩
  · rintro ⟨hold, hnew, hs⟩
    refine ⟨d.path, ?_, delta_eq_some.mpr ⟨rfl, hold, hnew, by rw [← hold, ← hnew, hs]⟩⟩
    rw [List.mem_insertionSort, List.mem_append, List.mem_filter]
    by_cases hmem : d.path ∈ old.paths
    · exact .inl hmem
    · refine .inr ⟨Tree.mem_paths.mpr fun hnone => ?_, decide_eq_true hmem⟩
      rw [Tree.mem_paths, not_not] at hmem
      rw [hold, hnew, hmem, hnone] at hs
      cases hs

theorem exists_mem_diff {s : DiffStatus} (h : status (old.get p) (new.get p) = some s) :
    ∃ d ∈ diff old new, d.path = p ∧ d.status = s ∧ d.new = new.get p :=
  ⟨⟨p, old.get p, new.get p, s⟩, mem_diff.mpr ⟨rfl, rfl, h⟩, rfl, rfl, rfl⟩

def modeText : Option Entry → Text
  | none => "000000".toList
  | some e => e.mode.text

def oidText : Option Entry → Text
  | none => List.replicate 40 '0'
  | some e => e.oid.text

def DiffStatus.char : DiffStatus → Char
  | .A => 'A'
  | .D => 'D'
  | .M => 'M'
  | .T => 'T'

def Delta.header (d : Delta) : Text :=
  [':'] ++ modeText d.old ++ [' '] ++ modeText d.new ++ [' '] ++ oidText d.old ++ [' '] ++
    oidText d.new ++ [' ', d.status.char]

theorem length_modeText (e : Option Entry) : (modeText e).length = 6 := by
  rcases e with _ | ⟨mode, -⟩
  · rfl
  · cases mode <;> rfl

theorem length_oidText (e : Option Entry) : (oidText e).length = 40 := by
  rcases e with _ | e
  · rfl
  · exact e.oid.length_eq

theorem mem_modeText {e : Option Entry} (h : c ∈ modeText e) :
    c ∈ "0123456789abcdef".toList := by
  have hall : ∀ text ∈ ["000000", "100644", "100755", "120000", "160000"],
      text.toList.all (· ∈ "0123456789abcdef".toList) := by decide
  replace hall := fun text htext => List.all_iff_forall_prop.mp (hall text htext)
  rcases e with _ | ⟨mode, oid⟩
  · exact hall "000000" (by decide) c h
  · cases mode
    · exact hall "100644" (by decide) c h
    · exact hall "100755" (by decide) c h
    · exact hall "120000" (by decide) c h
    · exact hall "160000" (by decide) c h

theorem mem_oidText {e : Option Entry} (h : c ∈ oidText e) :
    c ∈ "0123456789abcdef".toList := by
  rcases e with _ | e
  · rw [List.eq_of_mem_replicate h]
    decide
  · exact e.oid.hex c h

theorem length_header (d : Delta) : d.header.length = 98 := by
  simp only [Delta.header, List.length_append, length_modeText, length_oidText, List.length_cons,
    List.length_nil]

theorem Delta.hex (d : Delta) :
    ∀ c ∈ modeText d.old ++ modeText d.new ++ oidText d.old ++ oidText d.new,
      c ∈ "0123456789abcdef".toList := by
  intro c hc
  simp only [List.mem_append] at hc
  rcases hc with ((hc | hc) | hc) | hc
  · exact mem_modeText hc
  · exact mem_modeText hc
  · exact mem_oidText hc
  · exact mem_oidText hc

theorem header_char {old new oldOid newOid : Text} {st : DiffStatus}
    (hhex : ∀ c ∈ old ++ new ++ oldOid ++ newOid, c ∈ "0123456789abcdef".toList)
    (h : c ∈ [':'] ++ old ++ [' '] ++ new ++ [' '] ++ oldOid ++ [' '] ++ newOid ++
      [' ', st.char]) : c.utf8Size = 1 ∧ c ≠ nul := by
  have hone : ∀ c ∈ ":0123456789abcdef ADMT".toList, c.utf8Size = 1 ∧ c ≠ nul :=
    List.all_iff_forall_prop.mp (by decide)
  have hrest : ∀ c ∈ [':', ' ', st.char], c ∈ ":0123456789abcdef ADMT".toList := by
    cases st <;> exact List.all_iff_forall_prop.mp (by decide)
  have hsub : ∀ c ∈ "0123456789abcdef".toList, c ∈ ":0123456789abcdef ADMT".toList :=
    List.all_iff_forall_prop.mp (by decide)
  refine hone c ?_
  by_cases hc : c ∈ [':', ' ', st.char]
  · exact hrest c hc
  · refine hsub c (hhex c ?_)
    simp only [List.mem_append, List.mem_cons, List.not_mem_nil, or_false] at h hc ⊢
    grind

def rawDiff (ds : List Delta) : Bytes :=
  ds.flatMap fun d => utf8 d.header ++ [0] ++ d.path.bytes ++ [0]

theorem rawDiff_cons (d : Delta) (ds : List Delta) :
    rawDiff (d :: ds) = utf8 d.header ++ 0 :: (d.path.bytes ++ 0 :: rawDiff ds) := by
  simp only [rawDiff, List.flatMap_cons, List.append_assoc, List.cons_append, List.nil_append]

theorem length_rawDiff (ds : List Delta) : (rawDiff ds).length ≤ 4195 * ds.length := by
  induction ds with
  | nil => exact Nat.le_refl _
  | cons d ds ih =>
    have hheader : (utf8 d.header).length = d.header.length :=
      length_utf8_of_ascii fun c hc => (header_char d.hex hc).1
    have hpath := d.path.length_lt
    rw [length_header] at hheader
    rw [rawDiff_cons]
    simp only [List.length_append, List.length_cons]
    omega

/-- The path that `:<name>` names at stage zero, if it names one. -/
def stagedName (name : Bytes) : Option Bytes :=
  match name with
  | digit :: colon :: rest =>
    if 48 ≤ digit ∧ digit ≤ 51 ∧ colon = 58 then if digit = 48 then some rest else none
    else some name
  | _ => some name

def Tree.getBytes (t : Tree) (name : Bytes) : Option Entry :=
  (t.rows.find? fun row => row.1.bytes = name).map (·.2)

theorem Tree.getBytes_path (t : Tree) (p : Path) : t.getBytes p.bytes = t.get p := by
  rw [getBytes, get, Table.find]
  congr 2
  funext row
  rw [beq_eq_decide, decide_eq_decide]
  exact ⟨Path.ext, fun h => by rw [h]⟩

/-- What `git cat-file blob :<name>` writes; it writes nothing if it fails. -/
def catFile (staged : Tree) (blob : Oid → Option Bytes) (name : Bytes) : Bytes :=
  ((stagedName name).bind fun path => (staged.getBytes path).bind fun e => blob e.oid).getD []

def Entry.contents (blob : Oid → Option Bytes) (e : Entry) : Bytes := (blob e.oid).getD []

def listChanges : Text :=
  "git add -A && git diff --cached --raw -z --no-renames --no-abbrev".toList

def catFileCommand : Text := "git cat-file blob ".toList
def encodeCommand : Text := " | base64 -w0".toList

def readBlob (word : Text) : Text := catFileCommand ++ word ++ encodeCommand

theorem nul_notMem_readBlob {word : Text} (h : nul ∉ word) : nul ∉ readBlob word := by
  have hbefore : nul ∉ catFileCommand := by decide
  have hafter : nul ∉ encodeCommand := by decide
  rw [readBlob, List.mem_append, List.mem_append]
  rintro ((hmem | hmem) | hmem)
  · exact hbefore hmem
  · exact h hmem
  · exact hafter hmem

theorem length_utf8_readBlob (word : Text) :
    (utf8 (readBlob word)).length = (utf8 word).length + 31 := by
  have hbefore : (utf8 catFileCommand).length = 18 := by decide
  have hafter : (utf8 encodeCommand).length = 13 := by decide
  rw [readBlob, utf8_append, utf8_append, List.length_append, List.length_append, hbefore, hafter]
  omega

/-- The sandbox holds this repository, and bash, git and base64 work in it. The pipe of the second
script succeeds whether git does or not. -/
structure Sandbox.Serves (s : Sandbox) (r : Repo) (blob : Oid → Option Bytes) : Prop where
  listing : s.Prints listChanges (rawDiff (diff r.head r.addAll))
  reading : ∀ word name, readWord .plain word = some (':' :: name) →
    s.Prints (readBlob word)
      (utf8 (Lib.Base64.encodePadded (catFile r.addAll blob (utf8 name))))

open Classical in
/-- What a script prints in this repository, for the two scripts the harness runs. -/
noncomputable def Repo.printed (r : Repo) (blob : Oid → Option Bytes) (script : Text) :
    Option Bytes :=
  if script = listChanges then some (rawDiff (diff r.head r.addAll))
  else if h : ∃ name word, script = readBlob word ∧ readWord .plain word = some (':' :: name) then
    some (utf8 (Lib.Base64.encodePadded (catFile r.addAll blob (utf8 h.choose))))
  else none

noncomputable def Repo.sandbox (r : Repo) (blob : Oid → Option Bytes) : Sandbox where
  lossy := .bySegments
  run plan :=
    match (plan.command.drop 4)[2]?.bind (r.printed blob) with
    | some out => .finished [.stdout out] 0 0
    | none => .failed "unknown command"

theorem readBlob_ne_listChanges (word : Text) : readBlob word ≠ listChanges := by
  intro h
  have hbegins : (readBlob word).take 5 = catFileCommand.take 5 := by
    rw [readBlob, List.append_assoc, List.take_append_of_le_length (by decide)]
  rw [h] at hbegins
  exact absurd hbegins (by decide)

theorem readBlob_injective : Function.Injective readBlob := fun a b h => by
  rw [readBlob, readBlob, List.append_cancel_right_eq, List.append_cancel_left_eq] at h
  exact h

theorem Repo.serves (r : Repo) (blob : Oid → Option Bytes) : (r.sandbox blob).Serves r blob where
  listing := by
    intro plan hcommand _
    refine ⟨[.stdout (rawDiff (diff r.head r.addAll))], 0, ?_, by simp [Frame.stdout?]⟩
    simp only [sandbox, hcommand, printed, List.getElem?_cons_succ, List.getElem?_cons_zero,
      Option.bind_some, if_true]
  reading := by
    intro word name hword plan hcommand _
    have hex : ∃ name' word', readBlob word = readBlob word' ∧
        readWord .plain word' = some (':' :: name') := ⟨name, word, rfl, hword⟩
    have hname : hex.choose = name := by
      obtain ⟨word', hblob, hword'⟩ := hex.choose_spec
      rw [← readBlob_injective hblob, hword] at hword'
      cases hword'
      rfl
    refine ⟨[.stdout (utf8 (Lib.Base64.encodePadded (catFile r.addAll blob (utf8 name))))], 0, ?_,
      by simp [Frame.stdout?]⟩
    simp only [sandbox, hcommand, printed, List.getElem?_cons_succ, List.getElem?_cons_zero,
      Option.bind_some, readBlob_ne_listChanges, if_false, dif_pos hex, hname]

end Gridops.FixAgent
