import Maximal.Lib.FileSystem
import Maximal.Lib.Runs

/-!
# The atomic writer of JSON files

A file is written under another name, synced and renamed into place. The process may die and the
power may go at any point, any call may fail, and before the file is opened someone else may put
anything in its way.

## Main definitions

- `Writer`, `Writer.step` — the calls of `atomicWriteJson`, one at a time, and what may come between
- `undisturbed` — the calls of one write that nothing comes between

## Main results

- `stepped` — what a step comes to
- `Sound.step`, `Latest.step` — what every step keeps
- `exec_undisturbed` — a write that nothing comes between gets through
- `atomicWriteJson_atomic` — the file is as it was at first, or a whole text that was written
-/

namespace Maximal.Platform

open FileSystem

/-! ## The writer -/

inductive WritePhase where
  | idle
  /-- A stale file under the other name is removed. -/
  | unlinked (json : List Char)
  /-- So many characters of the text are written. -/
  | opened (json : List Char) (inode : Inode) (count : ℕ)
  /-- Synced and closed. -/
  | flushed (json : List Char) (inode : Inode)

structure Writer (Name : Type) where
  disk : Disk Name
  phase : WritePhase := .idle
  /-- The texts that were renamed into place, the last first. -/
  renamed : List (List Char) := []

inductive WriteLabel (Name : Type) where
  /-- A call of `atomicWriteJson`, up to the removal of a stale file. -/
  | unlink (json : List Char)
  /-- `O_WRONLY | O_CREAT | O_EXCL`. -/
  | openExclusive
  /-- `writeFileSync` writes a part. -/
  | write (count : ℕ)
  | fsync
  | rename
  /-- A call of the system fails; the file is closed and the error thrown. -/
  | fail
  /-- The process dies. -/
  | kill
  | powerLoss (keep : ℕ) (garbage : Inode → List Char)
  /-- Someone else puts a link, a directory or another name of a file in place. -/
  | plant (entry : Option (Entry Name))

namespace Writer

variable {Name : Type} [DecidableEq Name]

/-- `target` is the path of the file and `tmp` the path beside it. A text is what
`JSON.stringify(value, null, 2)` makes, and a line end. -/
def step (tmp target : Name) : WriteLabel Name → Writer Name → Option (Writer Name)
  | .unlink json, s =>
    match s.phase with
    | .idle =>
      match s.disk.dir tmp with
      -- `ENOENT` is passed over
      | none => some { s with phase := .unlinked json }
      | some .directory => some s
      | some _ => some { s with disk := s.disk.set tmp none, phase := .unlinked json }
    | _ => none
  | .openExclusive, s =>
    match s.phase with
    | .unlinked json =>
      match s.disk.dir tmp with
      | none => some { s with disk := s.disk.create tmp, phase := .opened json s.disk.fresh 0 }
      -- `EEXIST`, also for a link
      | some _ => some { s with phase := .idle }
    | _ => none
  | .write count, s =>
    match s.phase with
    | .opened json inode written =>
      some { s with
        disk := s.disk.append inode ((json.drop written).take count)
        phase := .opened json inode (written + count) }
    | _ => none
  | .fsync, s =>
    match s.phase with
    | .opened json inode written =>
      if json.length ≤ written then
        some { s with disk := s.disk.sync inode, phase := .flushed json inode }
      else none
    | _ => none
  | .rename, s =>
    match s.phase with
    | .flushed json _ =>
      match s.disk.dir tmp, s.disk.dir target with
      | none, _ => some { s with phase := .idle }
      | _, some .directory => some { s with phase := .idle }
      | some _, _ =>
        some { disk := s.disk.rename tmp target, phase := .idle, renamed := json :: s.renamed }
    | _ => none
  | .fail, s =>
    match s.phase with
    | .idle => none
    | _ => some { s with phase := .idle }
  | .kill, s => some { s with phase := .idle }
  | .powerLoss keep garbage, s => some { s with disk := s.disk.lose keep garbage, phase := .idle }
  | .plant entry, s =>
    match s.phase with
    | .idle | .unlinked _ => some { s with disk := s.disk.set tmp entry }
    | _ => none

end Writer

/-- What a step comes to. -/
inductive Stepped {Name : Type} [DecidableEq Name] (tmp target : Name) (s : Writer Name) :
    WriteLabel Name → Writer Name → Prop
  /-- The disk stays as it is: there is nothing to remove, or the call throws, or the process
  dies. -/
  | phase {label} (phase : WritePhase) (hphase : phase = .idle ∨ ∃ json, phase = .unlinked json)
      (hlabel : ∀ keep garbage, label ≠ .powerLoss keep garbage) :
      Stepped tmp target s label { s with phase }
  /-- A stale file is removed, or someone puts something in its place. -/
  | set {label} (entry : Option (Entry Name)) (phase : WritePhase)
      (hphase : phase = .idle ∨ ∃ json, phase = .unlinked json) :
      Stepped tmp target s label { s with disk := s.disk.set tmp entry, phase }
  | created (json : List Char) (hphase : s.phase = .unlinked json) (htmp : s.disk.dir tmp = none) :
      Stepped tmp target s .openExclusive
        { s with disk := s.disk.create tmp, phase := .opened json s.disk.fresh 0 }
  | written {json : List Char} {inode count : ℕ} (more : ℕ)
      (hphase : s.phase = .opened json inode count) :
      Stepped tmp target s (.write more)
        { s with
          disk := s.disk.append inode ((json.drop count).take more)
          phase := .opened json inode (count + more) }
  | synced {json : List Char} {inode count : ℕ} (hphase : s.phase = .opened json inode count)
      (hcount : json.length ≤ count) :
      Stepped tmp target s .fsync
        { s with disk := s.disk.sync inode, phase := .flushed json inode }
  | renamed {json : List Char} {inode : Inode} (hphase : s.phase = .flushed json inode) :
      Stepped tmp target s .rename
        { disk := s.disk.rename tmp target, phase := .idle, renamed := json :: s.renamed }
  | lost (keep : ℕ) (garbage : Inode → List Char) :
      Stepped tmp target s (.powerLoss keep garbage)
        { s with disk := s.disk.lose keep garbage, phase := .idle }

theorem stepped {Name : Type} [DecidableEq Name] {tmp target : Name} {label : WriteLabel Name}
    {s s' : Writer Name} (h : s.step tmp target label = some s') :
    Stepped tmp target s label s' := by
  cases label with
  | unlink json =>
    simp only [Writer.step] at h
    split at h
    · rename_i hphase
      split at h
      · obtain rfl := Option.some.inj h
        exact .phase _ (.inr ⟨json, rfl⟩) nofun
      · obtain rfl := Option.some.inj h
        exact .phase s.phase (.inl hphase) nofun
      · obtain rfl := Option.some.inj h
        exact .set none _ (.inr ⟨json, rfl⟩)
    · cases h
  | openExclusive =>
    simp only [Writer.step] at h
    split at h
    · rename_i json hphase
      split at h
      · rename_i htmp
        obtain rfl := Option.some.inj h
        exact .created json hphase htmp
      · obtain rfl := Option.some.inj h
        exact .phase _ (.inl rfl) nofun
    · cases h
  | write more =>
    simp only [Writer.step] at h
    split at h
    · rename_i hphase
      obtain rfl := Option.some.inj h
      exact .written more hphase
    · cases h
  | fsync =>
    simp only [Writer.step] at h
    split at h
    · rename_i hphase
      obtain ⟨hcount, hs⟩ := Option.ite_none_right_eq_some.1 h
      obtain rfl := Option.some.inj hs
      exact .synced hphase hcount
    · cases h
  | rename =>
    simp only [Writer.step] at h
    split at h
    · rename_i hphase
      split at h
      · obtain rfl := Option.some.inj h
        exact .phase _ (.inl rfl) nofun
      · obtain rfl := Option.some.inj h
        exact .phase _ (.inl rfl) nofun
      · obtain rfl := Option.some.inj h
        exact .renamed hphase
    · cases h
  | fail =>
    simp only [Writer.step] at h
    split at h
    · cases h
    · obtain rfl := Option.some.inj h
      exact .phase _ (.inl rfl) nofun
  | kill =>
    obtain rfl := Option.some.inj h
    exact .phase _ (.inl rfl) nofun
  | powerLoss keep garbage =>
    obtain rfl := Option.some.inj h
    exact .lost keep garbage
  | plant entry =>
    simp only [Writer.step] at h
    split at h
    · rename_i hphase
      obtain rfl := Option.some.inj h
      exact .set entry s.phase (.inl hphase)
    · rename_i json hphase
      obtain rfl := Option.some.inj h
      exact .set entry s.phase (.inr ⟨json, hphase⟩)
    · cases h

/-! ## What every step keeps -/

section Sound

variable {Name : Type} {tmp target : Name} {initial : Disk Name}

/-- The entry is as it was at first, or names a whole text that was renamed into place. -/
def Intact (initial : Disk Name) (target : Name) (disk : Disk Name)
    (renamed : List (List Char)) (entry : Option (Entry Name)) : Prop :=
  entry = initial.dir target ∨ ∃ json ∈ renamed, disk.Holds entry json

/-- The file that is being written has a name that is not in use yet. -/
def Writing (initial : Disk Name) (tmp : Name) (disk : Disk Name) : WritePhase → Prop
  | .idle | .unlinked _ => True
  | .opened json inode written =>
    initial.fresh ≤ inode ∧ inode < disk.fresh ∧ disk.data inode = json.take written ∧
      disk.synced inode = false ∧ disk.dir tmp = some (.file inode)
  | .flushed json inode => disk.Holds (some (.file inode)) json ∧ disk.dir tmp = some (.file inode)

structure Sound (tmp target : Name) (initial : Disk Name) (s : Writer Name) : Prop where
  fresh_le : initial.fresh ≤ s.disk.fresh
  /-- No file of before is touched. -/
  kept : ∀ inode < initial.fresh, s.disk.data inode = initial.data inode ∧
    s.disk.synced inode = true
  others : ∀ name, name ≠ tmp → name ≠ target → s.disk.Always name (· = initial.dir name)
  intact : s.disk.Always target (Intact initial target s.disk s.renamed)
  writing : Writing initial tmp s.disk s.phase

theorem Intact.imp {disk disk' : Disk Name} {renamed renamed' : List (List Char)}
    {entry : Option (Entry Name)} (h : Intact initial target disk renamed entry)
    (hholds : ∀ json, disk.Holds entry json → disk'.Holds entry json)
    (hrenamed : renamed ⊆ renamed') : Intact initial target disk' renamed' entry := by
  obtain hfirst | ⟨json, hjson, hentry⟩ := h
  · exact .inl hfirst
  · exact .inr ⟨json, hrenamed hjson, hholds json hentry⟩

theorem Sound.append {s : Writer Name} {json : List Char} {inode written : ℕ}
    (h : Sound tmp target initial s) (hphase : s.phase = .opened json inode written) (count : ℕ) :
    Sound tmp target initial
      { s with
        disk := s.disk.append inode ((json.drop written).take count)
        phase := .opened json inode (written + count) } := by
  have hwriting := h.writing
  rw [hphase] at hwriting
  obtain ⟨hnew, hfresh, hdata, hsynced, htmp⟩ := hwriting
  refine ⟨h.fresh_le, fun inode' hinode' => ?_, h.others, ?_, hnew, hfresh, ?_, ?_, htmp⟩
  · have hold : inode' ≠ inode := Nat.ne_of_lt (Nat.lt_of_lt_of_le hinode' hnew)
    exact ⟨(Function.update_of_ne hold ..).trans (h.kept inode' hinode').1,
      (Function.update_of_ne hold ..).trans (h.kept inode' hinode').2⟩
  · exact fun dir hdir =>
      (h.intact dir hdir).imp (fun _ hholds => hholds.append hsynced _) fun _ => id
  · rw [List.take_add, ← hdata]
    exact Function.update_self ..
  · exact Function.update_self ..

theorem Sound.sync {s : Writer Name} {json : List Char} {inode written : ℕ}
    (h : Sound tmp target initial s) (hphase : s.phase = .opened json inode written)
    (hwritten : json.length ≤ written) :
    Sound tmp target initial
      { s with disk := s.disk.sync inode, phase := .flushed json inode } := by
  have hwriting := h.writing
  rw [hphase] at hwriting
  obtain ⟨hnew, hfresh, hdata, hsynced, htmp⟩ := hwriting
  refine ⟨h.fresh_le, fun inode' hinode' => ?_, h.others, ?_, ?_, htmp⟩
  · have hold : inode' ≠ inode := Nat.ne_of_lt (Nat.lt_of_lt_of_le hinode' hnew)
    exact ⟨(h.kept inode' hinode').1,
      (Function.update_of_ne hold ..).trans (h.kept inode' hinode').2⟩
  · exact fun dir hdir => (h.intact dir hdir).imp (fun _ hholds => hholds.sync _) fun _ => id
  · exact ⟨inode, hfresh, rfl, hdata.trans (List.take_of_length_le hwritten),
      Function.update_self ..⟩

theorem Sound.lose {s : Writer Name} (h : Sound tmp target initial s) (keep : ℕ)
    (garbage : Inode → List Char) :
    Sound tmp target initial { s with disk := s.disk.lose keep garbage, phase := .idle } where
  fresh_le := h.fresh_le
  kept inode hinode := by
    obtain ⟨hdata, hsynced⟩ := h.kept inode hinode
    exact ⟨(if_pos hsynced).trans hdata, rfl⟩
  others name htmp htarget := (h.others name htmp htarget).lose keep garbage
  intact := (h.intact.imp fun _ hentry =>
    hentry.imp (fun _ hholds => hholds.lose keep garbage) fun _ => id).lose keep garbage
  writing := trivial

/-- A call that leaves the disk as it is. -/
theorem Sound.setPhase {s : Writer Name} (h : Sound tmp target initial s) {phase : WritePhase}
    (hphase : Writing initial tmp s.disk phase) :
    Sound tmp target initial { s with phase } where
  fresh_le := h.fresh_le
  kept := h.kept
  others := h.others
  intact := h.intact
  writing := hphase

theorem writing_of_idle {disk : Disk Name} {phase : WritePhase}
    (h : phase = .idle ∨ ∃ json, phase = .unlinked json) : Writing initial tmp disk phase := by
  obtain rfl | ⟨json, rfl⟩ := h <;> trivial

variable [DecidableEq Name]

/-- Setting the other name touches neither the target nor a file. -/
theorem Sound.set {s : Writer Name} (h : Sound tmp target initial s) (hne : tmp ≠ target)
    (entry : Option (Entry Name)) {phase : WritePhase}
    (hphase : Writing initial tmp (s.disk.set tmp entry) phase) :
    Sound tmp target initial { s with disk := s.disk.set tmp entry, phase } where
  fresh_le := h.fresh_le
  kept := h.kept
  others name htmp htarget := (h.others name htmp htarget).set fun heq => absurd heq.symm htmp
  intact := h.intact.set fun heq => absurd heq hne
  writing := hphase

theorem Sound.create {s : Writer Name} (h : Sound tmp target initial s) (hne : tmp ≠ target)
    (json : List Char) :
    Sound tmp target initial
      { s with disk := s.disk.create tmp, phase := .opened json s.disk.fresh 0 } where
  fresh_le := Nat.le_succ_of_le h.fresh_le
  kept inode hinode := by
    have hold : inode ≠ s.disk.fresh := Nat.ne_of_lt (Nat.lt_of_lt_of_le hinode h.fresh_le)
    exact ⟨(Function.update_of_ne hold ..).trans (h.kept inode hinode).1,
      (Function.update_of_ne hold ..).trans (h.kept inode hinode).2⟩
  others name htmp htarget := (h.others name htmp htarget).create htmp
  intact := (h.intact.imp fun _ hentry =>
    hentry.imp (fun _ hholds => hholds.create tmp) fun _ => id).create hne.symm
  writing := ⟨h.fresh_le, Nat.lt_succ_self _, Function.update_self .., Function.update_self ..,
    s.disk.set_self ..⟩

/-- The file that is renamed is the one that was written: nobody else has that name. -/
theorem Sound.rename {s : Writer Name} {json : List Char} {inode : Inode}
    (h : Sound tmp target initial s) (hne : tmp ≠ target) (hphase : s.phase = .flushed json inode) :
    Sound tmp target initial
      { disk := s.disk.rename tmp target, phase := .idle, renamed := json :: s.renamed } := by
  have hwriting := h.writing
  rw [hphase] at hwriting
  obtain ⟨hholds, htmp⟩ := hwriting
  refine ⟨h.fresh_le, h.kept, fun name hold hnew =>
    (h.others name hold hnew).rename hold fun heq => absurd heq hnew, ?_, trivial⟩
  have hgrown : s.disk.Always target
      (Intact initial target (s.disk.rename tmp target) (json :: s.renamed)) :=
    h.intact.imp fun _ hentry => hentry.imp (fun _ hholds => hholds) (List.subset_cons_self ..)
  exact hgrown.rename hne.symm fun _ =>
    .inr ⟨json, List.mem_cons_self, by rw [htmp]; exact hholds⟩

theorem Sound.step (hne : tmp ≠ target) {label : WriteLabel Name} {s s' : Writer Name}
    (h : Sound tmp target initial s) (hstep : s.step tmp target label = some s') :
    Sound tmp target initial s' := by
  cases stepped hstep with
  | phase phase hphase => exact h.setPhase (writing_of_idle hphase)
  | set entry phase hphase => exact h.set hne entry (writing_of_idle hphase)
  | created json => exact h.create hne json
  | written more hphase => exact h.append hphase more
  | synced hphase hcount => exact h.sync hphase hcount
  | renamed hphase => exact h.rename hne hphase
  | lost keep garbage => exact h.lose keep garbage

/-- The target is the last text that was renamed into place. -/
def Latest (target : Name) (initial : Disk Name) (s : Writer Name) : Prop :=
  match s.renamed with
  | [] => s.disk.dir target = initial.dir target
  | json :: _ => s.disk.Holds (s.disk.dir target) json

omit [DecidableEq Name] in
theorem Latest.imp {s s' : Writer Name} (h : Latest target initial s)
    (hrenamed : s'.renamed = s.renamed) (hdir : s'.disk.dir target = s.disk.dir target)
    (hholds : ∀ entry json, s.disk.Holds entry json → s'.disk.Holds entry json) :
    Latest target initial s' := by
  rw [Latest, hrenamed, hdir]
  rw [Latest] at h
  cases hs : s.renamed with
  | nil =>
    rw [hs] at h
    exact h
  | cons json renamed =>
    rw [hs] at h
    exact hholds _ _ h

theorem Latest.step (hne : tmp ≠ target) {label : WriteLabel Name} {s s' : Writer Name}
    (hsound : Sound tmp target initial s) (h : Latest target initial s)
    (hlabel : ∀ keep garbage, label ≠ .powerLoss keep garbage)
    (hstep : s.step tmp target label = some s') : Latest target initial s' := by
  have hwriting := hsound.writing
  cases stepped hstep with
  | phase phase hphase => exact h.imp rfl rfl fun _ _ hholds => hholds
  | set entry phase hphase =>
    exact h.imp rfl (s.disk.set_of_ne entry hne.symm) fun _ _ hholds => hholds
  | created json =>
    exact h.imp rfl (s.disk.set_of_ne _ hne.symm) fun _ _ hholds => hholds.create tmp
  | written more hphase =>
    rw [hphase] at hwriting
    exact h.imp rfl rfl fun _ _ hholds => hholds.append hwriting.2.2.2.1 _
  | synced hphase hcount => exact h.imp rfl rfl fun _ _ hholds => hholds.sync _
  | renamed hphase =>
    rw [hphase] at hwriting
    obtain ⟨hholds, htmp⟩ := hwriting
    show (s.disk.rename tmp target).Holds ((s.disk.rename tmp target).dir target) _
    rw [s.disk.rename_new hne.symm, htmp]
    exact hholds
  | lost keep garbage => exact absurd rfl (hlabel keep garbage)

/-! ## Runs -/

def undisturbed (json : List Char) : List (WriteLabel Name) :=
  [.unlink json, .openExclusive, .write json.length, .fsync, .rename]

theorem step_unlink {s : Writer Name} (hphase : s.phase = .idle) (hne : tmp ≠ target)
    (htmp : s.disk.dir tmp ≠ some .directory) (json : List Char) :
    ∃ disk : Disk Name, s.step tmp target (.unlink json) =
        some { s with disk, phase := .unlinked json } ∧
      disk.dir tmp = none ∧ disk.dir target = s.disk.dir target := by
  simp only [Writer.step, hphase]
  cases hentry : s.disk.dir tmp with
  | none => exact ⟨s.disk, rfl, hentry, rfl⟩
  | some entry =>
    cases entry with
    | directory => exact absurd hentry htmp
    | file _ | link _ =>
      exact ⟨s.disk.set tmp none, rfl, s.disk.set_self _ _, s.disk.set_of_ne _ hne.symm⟩

/-- A write that nothing comes between gets through, whatever was left of others. -/
theorem exec_undisturbed {s : Writer Name} (hphase : s.phase = .idle) (hne : tmp ≠ target)
    (htmp : s.disk.dir tmp ≠ some .directory) (htarget : s.disk.dir target ≠ some .directory)
    (json : List Char) :
    ∃ s', Runs.exec (Writer.step tmp target) (undisturbed json) s = some s' ∧
      s'.renamed = json :: s.renamed ∧ s'.disk.Holds (s'.disk.dir target) json := by
  obtain ⟨disk, hunlink, hfree, hsame⟩ := step_unlink hphase hne htmp json
  let written := (disk.create tmp).append disk.fresh json
  let flushed := written.sync disk.fresh
  have hopen : Writer.step tmp target .openExclusive { s with disk, phase := .unlinked json } =
      some { s with disk := disk.create tmp, phase := .opened json disk.fresh 0 } := by
    simp only [Writer.step, hfree]
  have hwrite : Writer.step tmp target (.write json.length)
        { s with disk := disk.create tmp, phase := .opened json disk.fresh 0 } =
      some { s with disk := written, phase := .opened json disk.fresh json.length } := by
    simp only [Writer.step, List.drop_zero, List.take_length, Nat.zero_add]
    rfl
  have hfsync : Writer.step tmp target .fsync
        { s with disk := written, phase := .opened json disk.fresh json.length } =
      some { s with disk := flushed, phase := .flushed json disk.fresh } := if_pos (Nat.le_refl _)
  have hname : flushed.dir tmp = some (.file disk.fresh) := disk.set_self ..
  have hplace : flushed.dir target = s.disk.dir target := (disk.set_of_ne _ hne.symm).trans hsame
  have hrename : Writer.step tmp target .rename
        { s with disk := flushed, phase := .flushed json disk.fresh } =
      some ⟨flushed.rename tmp target, .idle, json :: s.renamed⟩ := by
    simp only [Writer.step, hname, hplace]
  have hdata : flushed.data disk.fresh = json := by
    have hempty : (disk.create tmp).data disk.fresh = [] := Function.update_self ..
    refine (Function.update_self ..).trans ?_
    rw [hempty, List.nil_append]
  refine ⟨⟨flushed.rename tmp target, .idle, json :: s.renamed⟩, ?_, rfl, ?_⟩
  · rw [undisturbed, Runs.exec, hunlink, Option.bind_some, Runs.exec, hopen, Option.bind_some,
      Runs.exec, hwrite, Option.bind_some, Runs.exec, hfsync, Option.bind_some, Runs.exec, hrename]
    rfl
  · show (flushed.rename tmp target).Holds ((flushed.rename tmp target).dir target) json
    rw [flushed.rename_new hne.symm, hname]
    exact ⟨disk.fresh, Nat.lt_succ_self _, rfl, hdata, Function.update_self ..⟩

/-- In every run of writes and failures the file is as it was at first or a whole text that was
written, and safe. Without a loss of power it is the last text that was renamed into place. No
other file is touched, whatever stands in the way, and what is left of a write that failed does not
stop the next one. -/
theorem atomicWriteJson_atomic (hne : tmp ≠ target) (hpast : initial.past = [])
    (hsynced : ∀ inode < initial.fresh, initial.synced inode = true)
    {labels : List (WriteLabel Name)} {s : Writer Name}
    (hrun : Runs.exec (Writer.step tmp target) labels { disk := initial } = some s) :
    Intact initial target s.disk s.renamed (s.disk.dir target) ∧
      ((∀ label ∈ labels, ∀ keep garbage, label ≠ .powerLoss keep garbage) →
        Latest target initial s) ∧
      (∀ inode < initial.fresh, s.disk.data inode = initial.data inode) ∧
      (∀ name, name ≠ tmp → name ≠ target → s.disk.dir name = initial.dir name) ∧
      ∀ json, s.phase = .idle → s.disk.dir tmp ≠ some .directory →
        s.disk.dir target ≠ some .directory →
        ∃ s', Runs.exec (Writer.step tmp target) (undisturbed json) s = some s' ∧
          s'.renamed = json :: s.renamed ∧ s'.disk.Holds (s'.disk.dir target) json := by
  have hstart : Sound tmp target initial { disk := initial } := by
    have hdirs : initial.dirs = [initial.dir] := by rw [Disk.dirs, hpast]
    refine ⟨Nat.le_refl _, fun inode hinode => ⟨rfl, hsynced inode hinode⟩, ?_, ?_, trivial⟩
    · intro name _ _ dir hdir
      rw [hdirs] at hdir
      rw [List.mem_singleton.1 hdir]
    · intro dir hdir
      rw [hdirs] at hdir
      rw [List.mem_singleton.1 hdir]
      exact .inl rfl
  have hsound : Sound tmp target initial s :=
    Runs.exec_preserves (fun _ _ _ h hstep => h.step hne hstep) hstart hrun
  refine ⟨hsound.intact.now, fun hlabels => ?_, fun inode hinode => (hsound.kept inode hinode).1,
    fun name htmp htarget => (hsound.others name htmp htarget).now,
    fun json hphase htmp htarget => exec_undisturbed hphase hne htmp htarget json⟩
  have hmeets : Runs.Meets (Writer.step tmp target)
      (fun label _ => ∀ keep garbage, label ≠ .powerLoss keep garbage) labels
      { disk := initial } := Runs.meets_of_forall hlabels
  exact (Runs.exec_invariant (I := fun s => Sound tmp target initial s ∧ Latest target initial s)
    (fun label s s' h hlabel hstep => ⟨h.1.step hne hstep, h.2.step hne h.1 hlabel hstep⟩) hmeets
    ⟨hstart, rfl⟩ hrun).2

end Sound

/-- The file is a link to one that is kept elsewhere. -/
def linked : Disk String where
  dir name :=
    if name = "settings.json" then some (.link "dotfiles/settings.json")
    else if name = "dotfiles/settings.json" then some (.file 0) else none
  past := []
  data _ := "old".toList
  synced _ := true
  fresh := 1

/-- A link is planted, the first write dies half way, and the power goes after the second. -/
def interrupted : List (WriteLabel String) :=
  [.plant (some (.link "dotfiles/settings.json")), .unlink "first".toList, .openExclusive, .write 2,
    .kill] ++ undisturbed "second".toList ++ [.powerLoss 1 fun _ => "junk".toList]

theorem atomicWriteJson_atomic_interrupted :
    ∃ s, Runs.exec (Writer.step "settings.json.tmp" "settings.json") interrupted
        { disk := linked } = some s ∧
      Intact linked "settings.json" s.disk s.renamed (s.disk.dir "settings.json") ∧
      s.disk.data 0 = "old".toList := by
  have hruns : (Runs.exec (Writer.step "settings.json.tmp" "settings.json") interrupted
      { disk := linked }).isSome = true := by decide +kernel
  obtain ⟨s, hrun⟩ := Option.isSome_iff_exists.1 hruns
  obtain ⟨hintact, -, hkept, -⟩ :=
    atomicWriteJson_atomic (by decide) rfl (fun _ _ => rfl) hrun
  exact ⟨s, hrun, hintact, hkept 0 (Nat.zero_lt_one)⟩

end Maximal.Platform
