import Mathlib.Data.List.Basic
import Mathlib.Logic.Function.Basic

/-!
# Files that survive a loss of power

A directory names files, and the disk may be behind it: a loss of power leaves some directory of
the past, and of a file that was not synced since it was written, anything.

## Main definitions

- `FileSystem.Disk` — the directory and the contents, with what a loss of power may leave
- `FileSystem.Disk.lose` — what it leaves
- `FileSystem.Disk.Holds` — an entry names a file with a text that is safe
- `FileSystem.Disk.Always` — an entry has a property, and had it in every directory of the past

## Main results

- `FileSystem.Disk.Holds.create`, `Holds.append`, `Holds.sync`, `Holds.lose` — safe texts stay
- `FileSystem.Disk.Always.set`, `Always.rename`, `Always.lose`
-/

namespace FileSystem

abbrev Inode := ℕ

inductive Entry (Name : Type) where
  | file (inode : Inode)
  /-- A symbolic link. -/
  | link (target : Name)
  | directory
  deriving DecidableEq

abbrev Directory (Name : Type) := Name → Option (Entry Name)

structure Disk (Name : Type) where
  dir : Directory Name
  /-- The directories that a loss of power may bring back beside the current one, the latest
  first. -/
  past : List (Directory Name)
  data : Inode → List Char
  synced : Inode → Bool
  /-- The next inode. -/
  fresh : Inode

namespace Disk

variable {Name : Type}

/-- All that the directory may be after a loss of power. -/
def dirs (disk : Disk Name) : List (Directory Name) := disk.dir :: disk.past

def append (disk : Disk Name) (inode : Inode) (text : List Char) : Disk Name :=
  { disk with
    data := Function.update disk.data inode (disk.data inode ++ text)
    synced := Function.update disk.synced inode false }

def sync (disk : Disk Name) (inode : Inode) : Disk Name :=
  { disk with synced := Function.update disk.synced inode true }

/-- The directory of `keep` changes ago comes back, and files that were not synced hold anything. -/
def lose (disk : Disk Name) (keep : ℕ) (garbage : Inode → List Char) : Disk Name where
  dir := disk.dirs.getD keep disk.dir
  past := []
  data inode := if disk.synced inode then disk.data inode else garbage inode
  synced _ := true
  fresh := disk.fresh

section Changes

variable [DecidableEq Name]

def set (disk : Disk Name) (name : Name) (entry : Option (Entry Name)) : Disk Name :=
  { disk with
    dir := Function.update disk.dir name entry
    past := disk.dirs }

/-- A new empty file. -/
def create (disk : Disk Name) (name : Name) : Disk Name :=
  { disk.set name (some (.file disk.fresh)) with
    data := Function.update disk.data disk.fresh []
    synced := Function.update disk.synced disk.fresh false
    fresh := disk.fresh + 1 }

/-- The entry moves in one change; a link that is replaced is not followed. -/
def rename (disk : Disk Name) (oldName newName : Name) : Disk Name :=
  { disk with
    dir := Function.update (Function.update disk.dir newName (disk.dir oldName)) oldName none
    past := disk.dirs }

theorem set_self (disk : Disk Name) (name : Name) (entry : Option (Entry Name)) :
    (disk.set name entry).dir name = entry := Function.update_self ..

theorem set_of_ne (disk : Disk Name) {name changed : Name} (entry : Option (Entry Name))
    (h : name ≠ changed) : (disk.set changed entry).dir name = disk.dir name :=
  Function.update_of_ne h ..

theorem rename_new (disk : Disk Name) {oldName newName : Name} (h : newName ≠ oldName) :
    (disk.rename oldName newName).dir newName = disk.dir oldName :=
  (Function.update_of_ne h ..).trans (Function.update_self ..)

theorem rename_of_ne (disk : Disk Name) {name oldName newName : Name} (hold : name ≠ oldName)
    (hnew : name ≠ newName) : (disk.rename oldName newName).dir name = disk.dir name :=
  (Function.update_of_ne hold ..).trans (Function.update_of_ne hnew ..)

end Changes

/-! ## Texts -/

/-- The entry names a file that holds the text, and holds it after a loss of power. -/
def Holds (disk : Disk Name) (entry : Option (Entry Name)) (text : List Char) : Prop :=
  ∃ inode < disk.fresh, entry = some (.file inode) ∧ disk.data inode = text ∧
    disk.synced inode = true

variable {disk : Disk Name} {entry : Option (Entry Name)} {text : List Char}

theorem Holds.create [DecidableEq Name] (h : disk.Holds entry text) (name : Name) :
    (disk.create name).Holds entry text := by
  obtain ⟨inode, hfresh, rfl, htext, hsynced⟩ := h
  have hne : inode ≠ disk.fresh := Nat.ne_of_lt hfresh
  refine ⟨inode, Nat.lt_succ_of_lt hfresh, rfl, ?_, ?_⟩
  · exact (Function.update_of_ne hne _ _).trans htext
  · exact (Function.update_of_ne hne _ _).trans hsynced

/-- A file that is written was not safe before. -/
theorem Holds.append (h : disk.Holds entry text) {inode : Inode}
    (hinode : disk.synced inode = false) (more : List Char) :
    (disk.append inode more).Holds entry text := by
  obtain ⟨inode', hfresh, rfl, htext, hsynced⟩ := h
  have hne : inode' ≠ inode := fun heq => by
    rw [heq, hinode] at hsynced
    cases hsynced
  refine ⟨inode', hfresh, rfl, ?_, ?_⟩
  · exact (Function.update_of_ne hne _ _).trans htext
  · exact (Function.update_of_ne hne _ _).trans hsynced

theorem Holds.sync (h : disk.Holds entry text) (inode : Inode) :
    (disk.sync inode).Holds entry text := by
  obtain ⟨inode', hfresh, rfl, htext, hsynced⟩ := h
  refine ⟨inode', hfresh, rfl, htext, ?_⟩
  by_cases heq : inode' = inode
  · rw [heq]
    exact Function.update_self _ _ _
  · exact (Function.update_of_ne heq _ _).trans hsynced

theorem Holds.lose (h : disk.Holds entry text) (keep : ℕ) (garbage : Inode → List Char) :
    (disk.lose keep garbage).Holds entry text := by
  obtain ⟨inode, hfresh, rfl, htext, hsynced⟩ := h
  exact ⟨inode, hfresh, rfl, (if_pos hsynced).trans htext, rfl⟩

/-! ## Entries -/

/-- The entry has the property now and in every directory that may come back. -/
def Always (disk : Disk Name) (name : Name) (p : Option (Entry Name) → Prop) : Prop :=
  ∀ dir ∈ disk.dirs, p (dir name)

variable {name : Name} {p q : Option (Entry Name) → Prop}

theorem Always.now (h : disk.Always name p) : p (disk.dir name) := h _ List.mem_cons_self

theorem Always.imp (h : disk.Always name p) (hpq : ∀ entry, p entry → q entry) :
    disk.Always name q :=
  fun dir hdir => hpq _ (h dir hdir)

theorem Always.lose (h : disk.Always name p) (keep : ℕ) (garbage : Inode → List Char) :
    (disk.lose keep garbage).Always name p := by
  intro dir hdir
  obtain rfl := List.mem_singleton.1 hdir
  refine h _ ?_
  show disk.dirs.getD keep disk.dir ∈ disk.dirs
  rw [List.getD_eq_getElem?_getD]
  cases hkeep : disk.dirs[keep]? with
  | none => exact List.mem_cons_self
  | some dir => exact List.mem_of_getElem? hkeep

/-- A change of the directory adds what it makes. -/
theorem always_changed {dir : Directory Name} (h : disk.Always name p) (hnew : p (dir name)) :
    ∀ dir' ∈ dir :: disk.dirs, p (dir' name) := by
  intro dir' hdir'
  obtain rfl | hold := List.mem_cons.1 hdir'
  · exact hnew
  · exact h dir' hold

section Changes

variable [DecidableEq Name]

theorem Always.set (h : disk.Always name p) {changed : Name} {entry : Option (Entry Name)}
    (hnew : changed = name → p entry) : (disk.set changed entry).Always name p := by
  refine always_changed h ?_
  by_cases heq : name = changed
  · rw [heq, set_self]
    exact hnew heq.symm
  · rw [set_of_ne _ _ heq]
    exact h.now

theorem Always.create (h : disk.Always name p) {changed : Name} (hne : name ≠ changed) :
    (disk.create changed).Always name p :=
  h.set fun heq => absurd heq.symm hne

theorem Always.rename (h : disk.Always name p) {oldName newName : Name} (hold : name ≠ oldName)
    (hnew : name = newName → p (disk.dir oldName)) :
    (disk.rename oldName newName).Always name p := by
  refine always_changed h ?_
  by_cases heq : name = newName
  · rw [heq, rename_new _ (heq ▸ hold)]
    exact hnew heq
  · rw [rename_of_ne _ hold heq]
    exact h.now

end Changes

end Disk

end FileSystem
