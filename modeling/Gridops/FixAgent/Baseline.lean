import Gridops.FixAgent.Changes

/-!
# The fix against the baseline

`prepare_checkout_script` commits the tree that GitHub served as the baseline. Then the model runs
tools in the sandbox, among them any command, and at the end `changed_paths` lists what was changed.
It asks git for the differences of the index from `HEAD`, not from the baseline commit, so what a
tool call commits is missing from the list.

A tool call is any function of the repository. `Exact` is what the list is for;
`changedPaths_exact_iff` says which repositories it is exact in.
-/

namespace Gridops.FixAgent

open Lib (Table)

/-- The repository as `prepare_checkout_script` leaves it: everything is tracked and committed. -/
def prepareCheckout (served : Tree) (ignored : Path → Bool) : Repo where
  head := served
  index := served
  files := served
  ignored := ignored

def Repo.after (r : Repo) (calls : List (Repo → Repo)) : Repo :=
  calls.foldl (fun r call => call r) r

def checkout (served : Tree) (ignored : Path → Bool) (calls : List (Repo → Repo)) : Repo :=
  (prepareCheckout served ignored).after calls

/-! ## Exact lists -/

/-- The kind of change between two trees at a path given by its bytes. -/
def changeAt (old new : Tree) (name : Bytes) : Option ChangeKind :=
  (status (old.getBytes name) (new.getBytes name)).map DiffStatus.kind

/-- The list holds the paths at which the two trees differ, each with the kind of its change, and
no others. -/
def Exact (baseline staged : Tree) (cs : List ChangedPath) : Prop :=
  ∀ name kind, (∃ c ∈ cs, utf8 c.path = name ∧ c.kind = kind) ↔
    changeAt baseline staged name = some kind

/-- The path under which a path is listed: itself, if it is UTF-8. -/
def listedAs (l : Lossy) (p : Path) : Bytes := utf8 (l.decode p.bytes)

/-- What has changed since `HEAD` has changed alike since the baseline, and every change since the
baseline is listed so. -/
def Tracks (l : Lossy) (baseline head staged : Tree) : Prop :=
  (∀ p, head.get p ≠ staged.get p →
    changeAt baseline staged (listedAs l p) = changeAt head staged p.bytes) ∧
  ∀ p, baseline.get p ≠ staged.get p →
    ∃ q, listedAs l q = p.bytes ∧ head.get q ≠ staged.get q

/-- At this path `HEAD` has the baseline's entry, or both have entries and the index has neither of
them. -/
def Agrees (baseline head staged : Tree) (p : Path) : Prop :=
  head.get p = baseline.get p ∨
    ((head.get p).isSome ∧ (baseline.get p).isSome ∧
      head.get p ≠ staged.get p ∧ baseline.get p ≠ staged.get p)

section

variable {l : Lossy} {baseline head staged old new : Tree} {p : Path}

theorem changeAt_path : changeAt old new p.bytes =
    (status (old.get p) (new.get p)).map DiffStatus.kind := by
  rw [changeAt, Tree.getBytes_path, Tree.getBytes_path]

theorem changeAt_ne_none : changeAt old new p.bytes ≠ none ↔ old.get p ≠ new.get p := by
  rw [changeAt_path, ne_eq, Option.map_eq_none_iff, status_eq_none]

theorem exists_path_of_changeAt {name : Bytes} {kind : ChangeKind}
    (h : changeAt old new name = some kind) : ∃ p : Path, p.bytes = name := by
  have hrow : ∀ {t : Tree}, t.getBytes name ≠ none → ∃ p : Path, p.bytes = name := by
    intro t ht
    rw [Tree.getBytes, ne_eq, Option.map_eq_none_iff] at ht
    obtain ⟨row, hfind⟩ := Option.ne_none_iff_exists'.mp ht
    exact ⟨row.1, by simpa using List.find?_some hfind⟩
  by_contra hnone
  have hold : old.getBytes name = none := not_not.mp (mt hrow hnone)
  have hnew : new.getBytes name = none := not_not.mp (mt hrow hnone)
  rw [changeAt, hold, hnew] at h
  cases h

theorem exists_changed_iff {name : Bytes} {kind : ChangeKind} :
    (∃ c ∈ (diff head staged).map (Delta.changed l), utf8 c.path = name ∧ c.kind = kind) ↔
      ∃ p, listedAs l p = name ∧ changeAt head staged p.bytes = some kind := by
  constructor
  · rintro ⟨c, hc, hname, hkind⟩
    obtain ⟨d, hd, rfl⟩ := List.mem_map.mp hc
    obtain ⟨hold, hnew, hstatus⟩ := mem_diff.mp hd
    refine ⟨d.path, hname, ?_⟩
    rw [changeAt_path, ← hold, ← hnew, hstatus, Option.map_some]
    exact congrArg some hkind
  · rintro ⟨p, hname, hchange⟩
    rw [changeAt_path, Option.map_eq_some_iff] at hchange
    obtain ⟨st, hstatus, hkind⟩ := hchange
    obtain ⟨d, hd, rfl, rfl, -⟩ := exists_mem_diff hstatus
    exact ⟨d.changed l, List.mem_map_of_mem hd, hname, hkind⟩

theorem exact_iff_tracks :
    Exact baseline staged ((diff head staged).map (Delta.changed l)) ↔
      Tracks l baseline head staged := by
  unfold Exact
  simp only [exists_changed_iff]
  constructor
  · intro h
    constructor
    · intro p hp
      obtain ⟨kind, hkind⟩ := Option.ne_none_iff_exists'.mp (changeAt_ne_none.mpr hp)
      rw [hkind]
      exact (h _ kind).mp ⟨p, rfl, hkind⟩
    · intro p hp
      obtain ⟨kind, hkind⟩ := Option.ne_none_iff_exists'.mp (changeAt_ne_none.mpr hp)
      obtain ⟨q, hname, hq⟩ := (h p.bytes kind).mpr hkind
      exact ⟨q, hname, changeAt_ne_none.mp (by rw [hq]; exact Option.some_ne_none _)⟩
  · rintro ⟨halike, hlisted⟩ name kind
    constructor
    · rintro ⟨p, rfl, hp⟩
      rw [halike p (changeAt_ne_none.mp (by rw [hp]; exact Option.some_ne_none _)), hp]
    · intro hname
      obtain ⟨p, rfl⟩ := exists_path_of_changeAt hname
      obtain ⟨q, hq, hdiffers⟩ := hlisted p
        (changeAt_ne_none.mp (by rw [hname]; exact Option.some_ne_none _))
      refine ⟨q, hq, ?_⟩
      rw [← halike q hdiffers, hq, hname]

theorem kind_status (a c : Option Entry) : (status a c).map DiffStatus.kind =
    if a = c then none
    else if a.isNone then some .added
    else if c.isNone then some .deleted
    else some .modified := by
  rcases a with _ | a <;> rcases c with _ | c
  · rfl
  · rfl
  · rfl
  · by_cases h : a = c
    · rw [status, if_pos h, if_pos (congrArg some h)]
      rfl
    · have hne : some a ≠ some c := fun heq => h (Option.some.inj heq)
      rw [status, if_neg h, if_neg hne]
      split <;> rfl

theorem kind_eq_iff {a b c : Option Entry} :
    (status a c).map DiffStatus.kind = (status b c).map DiffStatus.kind ↔
      b = a ∨ (b.isSome ∧ a.isSome ∧ b ≠ c ∧ a ≠ c) := by
  rw [kind_status, kind_status]
  by_cases ha : a = c
  · by_cases hb : b = c
    · exact iff_of_true (by rw [if_pos ha, if_pos hb]) (.inl (hb.trans ha.symm))
    · refine iff_of_false ?_ ?_
      · rw [if_pos ha, if_neg hb]
        split
        · nofun
        · split <;> nofun
      · rintro (heq | ⟨-, -, -, hne⟩)
        · exact hb (heq.trans ha)
        · exact hne ha
  · by_cases hb : b = c
    · refine iff_of_false ?_ ?_
      · rw [if_neg ha, if_pos hb]
        split
        · nofun
        · split <;> nofun
      · rintro (heq | ⟨-, -, hne, -⟩)
        · exact ha (heq.symm.trans hb)
        · exact hne hb
    · rw [if_neg ha, if_neg hb]
      rcases a with _ | a <;> rcases b with _ | b
      · exact iff_of_true rfl (.inl rfl)
      · refine iff_of_false ?_ (by simp)
        simp only [Option.isNone_none, if_true, Option.isNone_some, Bool.false_eq_true, if_false]
        split <;> nofun
      · refine iff_of_false ?_ (by simp)
        simp only [Option.isNone_some, Bool.false_eq_true, if_false]
        split <;> nofun
      · exact iff_of_true rfl (.inr ⟨rfl, rfl, hb, ha⟩)

/-- Where the changes since `HEAD` have UTF-8 paths, `HEAD` stands for the baseline exactly if the
two agree at each path. -/
theorem tracks_iff_agrees
    (htext : ∀ p, head.get p ≠ staged.get p → ∃ t, utf8 t = p.bytes) :
    Tracks l baseline head staged ↔ ∀ p, Agrees baseline head staged p := by
  have hself : ∀ p, head.get p ≠ staged.get p → listedAs l p = p.bytes := by
    intro p hp
    obtain ⟨t, ht⟩ := htext p hp
    rw [listedAs, ← ht, l.decode_utf8]
  have hagrees : (∀ p, Agrees baseline head staged p) ↔
      ∀ p : Path, changeAt baseline staged p.bytes = changeAt head staged p.bytes :=
    forall_congr' fun p => by rw [changeAt_path, changeAt_path, kind_eq_iff, Agrees]
  rw [hagrees]
  constructor
  · rintro ⟨halike, hlisted⟩ p
    by_cases hp : head.get p = staged.get p
    · have hbase : baseline.get p = staged.get p := by
        by_contra hdiffers
        obtain ⟨q, hq, hdiffers⟩ := hlisted p hdiffers
        rw [hself q hdiffers] at hq
        rw [Path.ext hq] at hdiffers
        exact hdiffers hp
      rw [changeAt_path, changeAt_path, hbase, hp]
    · rw [← halike p hp, hself p hp]
  · intro halike
    refine ⟨fun p hp => by rw [hself p hp, halike p], fun p hp => ?_⟩
    have hdiffers : head.get p ≠ staged.get p := by
      rw [← changeAt_ne_none, ← halike p, changeAt_ne_none]
      exact hp
    exact ⟨p, hself p hdiffers, hdiffers⟩

end

/-! ## The published fix -/

section

variable {s : Sandbox} {blob : Oid → Option Bytes}

theorem changedPaths_exact {r : Repo} {baseline : Tree} (h : s.Serves r blob)
    (hfits : (rawDiff (diff r.head r.addAll)).length ≤ 1048576) :
    (∃ cs, changedPaths s = .ok cs ∧ Exact baseline r.addAll cs) ↔
      Tracks s.lossy baseline r.head r.addAll := by
  rw [changedPaths_eq h hfits, ← exact_iff_tracks]
  constructor
  · rintro ⟨cs, ⟨⟩, hexact⟩
    exact hexact
  · exact fun hexact => ⟨_, rfl, hexact⟩

/-- **When the list is what the agent has changed**: exactly if `HEAD` stands for the baseline. -/
theorem changedPaths_exact_iff (served : Tree) (ignored : Path → Bool)
    (calls : List (Repo → Repo)) (h : s.Serves (checkout served ignored calls) blob)
    (hfits : (rawDiff (diff (checkout served ignored calls).head
      (checkout served ignored calls).addAll)).length ≤ 1048576) :
    ((∃ cs, changedPaths s = .ok cs ∧ Exact served (checkout served ignored calls).addAll cs) ↔
      Tracks s.lossy served (checkout served ignored calls).head
        (checkout served ignored calls).addAll) ∧
    ((∀ p, (checkout served ignored calls).head.get p ≠
        (checkout served ignored calls).addAll.get p → ∃ t, utf8 t = p.bytes) →
      ((∃ cs, changedPaths s = .ok cs ∧ Exact served (checkout served ignored calls).addAll cs) ↔
        ∀ p, Agrees served (checkout served ignored calls).head
          (checkout served ignored calls).addAll p)) :=
  ⟨changedPaths_exact h hfits, fun htext =>
    (changedPaths_exact h hfits).trans (tracks_iff_agrees htext)⟩

end

namespace Sample

def editedOid : Oid := ⟨List.replicate 40 'b', by decide, List.all_iff_forall_prop.mp (by decide)⟩

def servedTree : Tree := oneFile.files

def editedTree : Tree := ⟨[(filePath, ⟨.file, editedOid⟩)], by decide⟩

def editFile (r : Repo) : Repo := { r with files := editedTree }

/-- `git commit -a`. -/
def commitAll (r : Repo) : Repo := { r with head := r.addAll, index := r.addAll }

def edited : Repo := checkout servedTree (fun _ => false) [editFile]

def committed : Repo := checkout servedTree (fun _ => false) [editFile, commitAll]

theorem diff_edited : diff edited.head edited.addAll =
    [⟨filePath, some ⟨.file, fileOid⟩, some ⟨.file, editedOid⟩, .M⟩] := by decide

theorem diff_committed : diff committed.head committed.addAll = [] := by decide

end Sample

open Sample

theorem edit_listed : ∃ cs, changedPaths (edited.sandbox fun _ => none) = .ok cs ∧
    Exact servedTree edited.addAll cs := by
  have hfits : (rawDiff (diff edited.head edited.addAll)).length ≤ 1048576 := by
    decide
  refine ((changedPaths_exact_iff servedTree (fun _ => false) [editFile]
    (edited.serves _) hfits).2 fun p hp => ?_).mpr fun p => .inl rfl
  obtain ⟨st, hstatus⟩ := Option.ne_none_iff_exists'.mp (mt status_eq_none.mp hp)
  obtain ⟨d, hd, rfl, -⟩ := exists_mem_diff hstatus
  have hpath : d.path = filePath := by
    change d ∈ diff edited.head edited.addAll at hd
    rw [diff_edited, List.mem_singleton] at hd
    rw [hd]
  exact ⟨['a'], by rw [hpath]; decide⟩

theorem committed_edit_missing :
    ¬ ∃ cs, changedPaths (committed.sandbox fun _ => none) = .ok cs ∧
      Exact servedTree committed.addAll cs := by
  have hfits : (rawDiff (diff committed.head committed.addAll)).length ≤ 1048576 := by
    decide
  rw [changedPaths_eq (committed.serves _) hfits, diff_committed]
  rintro ⟨cs, ⟨⟩, hexact⟩
  obtain ⟨c, hc, -⟩ := (hexact filePath.bytes .modified).mpr (by decide)
  exact List.not_mem_nil hc

end Gridops.FixAgent
