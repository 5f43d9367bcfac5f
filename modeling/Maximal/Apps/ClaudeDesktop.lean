import Maximal.Lib.Js.Equality
import Maximal.Lib.Js.JsonText
import Maximal.Lib.Js.Map
import Mathlib.Logic.Function.Basic

/-!
# The configuration of Claude Desktop

`applyConfigLibraryProfile` writes a profile into the library of Claude Desktop, makes it the applied
one, and sets the deployment mode; `revertConfigLibraryProfile` takes these away.

## Main definitions

- `Files`, `readJsonObject` — files, of which only objects are read
- `readMetaFile` — `_meta.json`, checked
- `applyConfigLibraryProfile`, `revertConfigLibraryProfile`
- `Disabled` — the files after both

## Main results

- `revert_apply` — what disabling leaves
-/

namespace Maximal.Apps.ClaudeDesktop

open Js

abbrev Fields := Entries String Json

/-! ## Files -/

/-- The segments of an absolute path. -/
abbrev Location := List String

inductive FileContent where
  | missing
  | unreadable
  | malformed
  | json (value : Json)

abbrev Files := Location → FileContent

def readJsonObject : FileContent → Option Fields
  | .json (.object fields) => some fields
  | _ => none

/-- `path.join`. -/
def join (base : Location) (relative : String) : Location :=
  (relative.toList.splitOn '/').foldl
    (fun path segment =>
      let name := String.ofList segment
      if name = "" ∨ name = "." then path
      else if name = ".." then path.dropLast
      else path ++ [name])
    base

def getClaude3pDir (home : Location) (localAppData : Option Location) (win32 : Bool) : Location :=
  if win32 then localAppData.getD (home ++ ["AppData", "Local"]) ++ ["Claude-3p"]
  else home ++ ["Library", "Application Support", "Claude-3p"]

def libDir (dir : Location) : Location := dir ++ ["configLibrary"]

def metaPath (dir : Location) : Location := libDir dir ++ ["_meta.json"]

def topPath (dir : Location) : Location := dir ++ ["claude_desktop_config.json"]

def profilePath (dir : Location) (id : String) : Location := join (libDir dir) (id ++ ".json")

/-! ## What the files hold -/

def gatewayProfile (home baseUrl : String) : Fields :=
  [("inferenceProvider", .string "gateway"),
    ("inferenceGatewayBaseUrl", .string baseUrl),
    ("inferenceGatewayApiKey", .string "anything"),
    ("inferenceGatewayAuthScheme", .string "bearer"),
    ("disableDeploymentModeChooser", .bool true),
    ("coworkEgressAllowedHosts", .array [.string "*"]),
    ("allowedWorkspaceFolders", .array [.string (home ++ "/Claude")]),
    ("disableEssentialTelemetry", .bool true),
    ("disableNonessentialTelemetry", .bool true),
    ("disableNonessentialServices", .bool false),
    ("disableAutoUpdates", .bool false),
    ("isLocalDevMcpEnabled", .bool true),
    ("isDesktopExtensionEnabled", .bool true),
    ("isDesktopExtensionDirectoryEnabled", .bool true),
    ("isDesktopExtensionSignatureRequired", .bool false),
    ("isClaudeCodeForDesktopEnabled", .bool true)]

structure MetaFile where
  appliedId : String
  entries : List Json

/-- An object with an id and a name, which are texts. -/
def isEntry (e : Json) : Bool := (e.get "id").asString.isSome && (e.get "name").asString.isSome

def readMetaFile (content : FileContent) : MetaFile :=
  let raw := (readJsonObject content).getD []
  { appliedId := (Val.asString (raw.get "appliedId")).getD ""
    entries := ((Val.asArray (raw.get "entries")).getD []).filter isEntry }

def profileMatches (existing : Option Fields) (values : Fields) : Bool :=
  match existing with
  | none => false
  | some existing => values.all fun value =>
      (existing.get value.1).map Json.stringify = some value.2.stringify

def OWNED_PREFERENCES : Fields := [("coworkWebSearchEnabled", .bool true)]

def OWNED_PREFERENCE_KEYS : List String := OWNED_PREFERENCES.map Prod.fst

/-! ## Enabling -/

structure ApplyConfigLibraryResult where
  files : Files
  profileId : String
  wrote : Bool

def hasId (id : String) (e : Json) : Bool := e.get "id" = some (.string id)

/-- `{ ...prefs, ...OWNED_PREFERENCES }`; the items of a list are its properties. -/
def withOwnedPreferences (prefs : Val) : Fields :=
  let own : Fields :=
    match prefs with
    | some (.object prefs) => prefs
    | some (.array items) => items.zipIdx.map fun e => (e.2.repr, e.1)
    | _ => []
  OWNED_PREFERENCES.foldl (fun prefs e => Json.set prefs e.1 e.2) own

def registered (id : String) (entries : List Json) : List Json :=
  if entries.any (hasId id) then entries
  else entries ++ [.object [("id", .string id), ("name", .string "Default")]]

/-- `uuid` is what `randomUUID` returns. -/
def applyConfigLibraryProfile (dir : Location) (values : Fields) (uuid : String) (files : Files) :
    ApplyConfigLibraryResult :=
  let mf := readMetaFile (files (metaPath dir))
  let profileId := if mf.appliedId = "" then uuid else mf.appliedId
  let existingProfile := readJsonObject (files (profilePath dir profileId))
  let top := (readJsonObject (files (topPath dir))).getD []
  if mf.appliedId = profileId && profileMatches existingProfile values &&
      top.get "deploymentMode" = some (.string "3p") then
    ⟨files, profileId, false⟩
  else
    let files := Function.update files (profilePath dir profileId) (.json (.object values))
    let files := Function.update files (metaPath dir) (.json (.object
      [("appliedId", .string profileId), ("entries", .array (registered profileId mf.entries))]))
    let top := Json.set top "deploymentMode" (.string "3p")
    let top := Json.set top "preferences"
      (.object (withOwnedPreferences (Entries.get top "preferences")))
    ⟨Function.update files (topPath dir) (.json (.object top)), profileId, true⟩

/-! ## Disabling -/

/-- The files, and whether anything was reverted, where nothing has thrown. -/
structure RevertResult where
  files : Files
  reverted : Option Bool

def stripOwnedPreferences (top : Fields) : Fields × Bool :=
  match top.get "preferences" with
  | some (.object prefs) =>
    let kept := prefs.filter fun e => e.1 ∉ OWNED_PREFERENCE_KEYS
    if kept.length = prefs.length then (top, false)
    else if kept = [] then (top.delete "preferences", true)
    else (Json.set top "preferences" (.object kept), true)
  | _ => (top, false)

/-- `a === b`; two objects of a text are never the same. -/
def strictEquals (a b : Val) : Bool := a = b && !a.any Json.isRecord

/-- `meta.entries.filter((e) => e.id !== meta.appliedId)`, which throws where the entries are no list
or hold a `null`. -/
def removeEntry (appliedId entries : Val) : Option (List Json) :=
  match entries with
  | some (.array items) =>
    if items.any Json.isNull then none
    else some (items.filter fun e => !strictEquals (e.get "id") appliedId)
  | _ => none

def revertTop (dir : Location) (files : Files) (reverted : Bool) : RevertResult :=
  match readJsonObject (files (topPath dir)) with
  | none => ⟨files, some reverted⟩
  | some top =>
    let hadMode := (top.get "deploymentMode").isSome
    let top := if hadMode then top.delete "deploymentMode" else top
    let (top, stripped) := stripOwnedPreferences top
    if hadMode || stripped then
      ⟨Function.update files (topPath dir) (.json (.object top)), some true⟩
    else ⟨files, some reverted⟩

def revertConfigLibraryProfile (dir : Location) (files : Files) : RevertResult :=
  let raw := (readJsonObject (files (metaPath dir))).getD []
  let appliedId : Val := raw.get "appliedId"
  if appliedId.truthy then
    -- the profile is deleted as best it can be
    let files :=
      match appliedId.text with
      | .error _ => files
      | .ok id => Function.update files (profilePath dir id) .missing
    match removeEntry appliedId (raw.get "entries") with
    | none => ⟨files, none⟩
    | some entries =>
      let files := Function.update files (metaPath dir) (.json (.object
        [("appliedId", .string ""), ("entries", .array entries)]))
      revertTop dir files true
  else revertTop dir files false

/-! ## Enabled and disabled again -/

/-- There is no applied id, or the entries are a list without a `null`. -/
def listsEntries (content : FileContent) : Bool :=
  let raw := (readJsonObject content).getD []
  !Val.truthy (raw.get "appliedId") || (removeEntry (raw.get "appliedId") (raw.get "entries")).isSome

/-- The profile that was applied is gone, and the other files are as they were; no profile is
applied and there is no deployment mode. -/
structure Disabled (dir : Location) (profileId : String) (files files' : Files) : Prop where
  others : ∀ path, path ≠ metaPath dir → path ≠ topPath dir → path ≠ profilePath dir profileId →
    files' path = files path
  profile : profilePath dir profileId ≠ metaPath dir → files' (profilePath dir profileId) = .missing
  appliedId : (readMetaFile (files' (metaPath dir))).appliedId = ""
  entries : (readMetaFile (files' (metaPath dir))).entries =
    (readMetaFile (files (metaPath dir))).entries.filter fun e => !hasId profileId e
  deploymentMode : ((readJsonObject (files' (topPath dir))).getD []).get "deploymentMode" = none

theorem metaPath_ne_topPath (dir : Location) : metaPath dir ≠ topPath dir := by
  intro h
  have hlength := congrArg List.length h
  simp [metaPath, libDir, topPath] at hlength

theorem strictEquals_string (v : Val) (s : String) :
    strictEquals v (some (.string s)) = decide (v = some (.string s)) := by
  rw [strictEquals]
  by_cases h : v = some (.string s)
  · simp [h, Json.isRecord]
  · simp [h]

/-! ### The top of the configuration -/

theorem get_stripOwnedPreferences (top : Fields) {k : String} (hk : k ≠ "preferences") :
    (stripOwnedPreferences top).1.get k = top.get k := by
  rw [stripOwnedPreferences]
  split
  · dsimp only
    split
    · rfl
    · split
      · exact Entries.get_delete_of_ne top hk
      · exact Json.lookup_set_of_ne top _ hk
  · rfl

/-- The deployment mode is gone, and only this file has changed. -/
theorem revertTop_spec (dir : Location) (files : Files) (reverted : Bool) :
    (revertTop dir files reverted).reverted.isSome = true ∧
      (∀ path, path ≠ topPath dir → (revertTop dir files reverted).files path = files path) ∧
      ((readJsonObject ((revertTop dir files reverted).files (topPath dir))).getD []).get
        "deploymentMode" = none := by
  rw [revertTop]
  cases htop : readJsonObject (files (topPath dir)) with
  | none =>
    refine ⟨rfl, fun _ _ => rfl, ?_⟩
    rw [htop]
    rfl
  | some top =>
    have hmode : (if (top.get "deploymentMode").isSome then top.delete "deploymentMode" else top).get
        "deploymentMode" = none := by
      split
      · exact Entries.get_delete_self top _
      · next h => simpa using h
    dsimp only
    generalize (if (top.get "deploymentMode").isSome then top.delete "deploymentMode" else top) =
      withoutMode at hmode
    have hstripped := get_stripOwnedPreferences withoutMode (k := "deploymentMode") (by decide)
    split
    · refine ⟨rfl, fun path hpath => Function.update_of_ne hpath _ _, ?_⟩
      dsimp only
      rw [Function.update_self]
      exact hstripped.trans hmode
    · next h =>
      refine ⟨rfl, fun _ _ => rfl, ?_⟩
      rw [htop]
      simpa using (not_or.1 (mt Bool.or_eq_true_iff.2 h)).1

/-! ### The library -/

theorem removeEntry_isSome {appliedId entries : Val} {items : List Json}
    (h : removeEntry appliedId entries = some items) :
    ∃ all, entries = some (.array all) ∧
      items = all.filter fun e => !strictEquals (e.get "id") appliedId := by
  rw [removeEntry.eq_def] at h
  split at h
  · next all =>
    split at h
    · cases h
    · exact ⟨all, rfl, (Option.some.inj h).symm⟩
  · cases h

/-- Nothing throws where the entries are listed. -/
theorem revert_isSome {dir : Location} {files : Files} :
    (revertConfigLibraryProfile dir files).reverted.isSome = listsEntries (files (metaPath dir)) := by
  rw [revertConfigLibraryProfile, listsEntries]
  dsimp only
  split
  · next h =>
    rw [h]
    cases removeEntry _ _ with
    | none => rfl
    | some entries => exact (revertTop_spec dir _ true).1
  · next h =>
    rw [Bool.eq_false_iff.2 h]
    exact (revertTop_spec dir _ false).1

theorem deploymentMode_of_revert {dir : Location} {files : Files}
    (h : (revertConfigLibraryProfile dir files).reverted.isSome = true) :
    ((readJsonObject ((revertConfigLibraryProfile dir files).files (topPath dir))).getD []).get
      "deploymentMode" = none := by
  rw [revertConfigLibraryProfile] at h ⊢
  dsimp only at h ⊢
  split at h
  · next htruthy =>
    rw [if_pos htruthy]
    split at h
    · cases h
    · exact (revertTop_spec dir _ true).2.2
  · next htruthy =>
    rw [if_neg htruthy]
    exact (revertTop_spec dir _ false).2.2

theorem revertTop_missing {dir : Location} {files : Files} (reverted : Bool)
    (h : files (topPath dir) = .missing) :
    (revertTop dir files reverted).files (topPath dir) = .missing := by
  rw [revertTop, h]
  exact h

theorem get_appliedId {content : FileContent} {id : String} (hne : id ≠ "")
    (h : (readMetaFile content).appliedId = id) :
    ((readJsonObject content).getD []).get "appliedId" = some (.string id) := by
  rw [readMetaFile] at h
  dsimp only at h
  cases hget : ((readJsonObject content).getD []).get "appliedId" with
  | none =>
    rw [hget] at h
    exact absurd h.symm hne
  | some v =>
    rw [hget] at h
    cases v with
    | string s => rw [show s = id from h]
    | _ => exact absurd h.symm hne

/-- What is read of `_meta.json` after the entry of an id has been removed. -/
theorem readMetaFile_removed (id : String) (all : List Json) :
    readMetaFile (.json (.object [("appliedId", .string ""), ("entries", .array
      (all.filter fun e => !strictEquals (e.get "id") (some (.string id))))])) =
      ⟨"", (all.filter isEntry).filter fun e => !hasId id e⟩ := by
  have hfilter : (all.filter fun e => !strictEquals (e.get "id") (some (.string id))).filter isEntry =
      (all.filter isEntry).filter fun e => !hasId id e := by
    simp only [strictEquals_string, hasId, List.filter_filter, Bool.and_comm]
  exact congrArg (MetaFile.mk "") hfilter

/-- What a call does that does not throw. -/
theorem revert_disabled {dir : Location} {files : Files} {id : String} (hne : id ≠ "")
    (hid : (readMetaFile (files (metaPath dir))).appliedId = id)
    (hok : (revertConfigLibraryProfile dir files).reverted.isSome = true) :
    Disabled dir id files (revertConfigLibraryProfile dir files).files := by
  have hmode := deploymentMode_of_revert hok
  have hget := get_appliedId hne hid
  have htruthy : Val.truthy (some (.string id)) = true := by simp [Val.truthy, Json.truthy, hne]
  rw [revert_isSome, listsEntries, hget, htruthy] at hok
  obtain ⟨entries, hentries⟩ := Option.isSome_iff_exists.1 hok
  obtain ⟨all, hall, rfl⟩ := removeEntry_isSome hentries
  have hmeta := metaPath_ne_topPath dir
  have hrevert : revertConfigLibraryProfile dir files = revertTop dir
      (Function.update (Function.update files (profilePath dir id) .missing) (metaPath dir)
        (.json (.object [("appliedId", .string ""), ("entries", .array
          (all.filter fun e => !strictEquals (e.get "id") (some (.string id))))]))) true := by
    rw [revertConfigLibraryProfile]
    dsimp only
    rw [hget, if_pos htruthy, hentries]
    rfl
  obtain ⟨-, hothers, -⟩ := revertTop_spec dir
    (Function.update (Function.update files (profilePath dir id) .missing) (metaPath dir)
        (.json (.object [("appliedId", .string ""), ("entries", .array
          (all.filter fun e => !strictEquals (e.get "id") (some (.string id))))]))) true
  rw [← hrevert] at hothers
  have hread : readMetaFile ((revertConfigLibraryProfile dir files).files (metaPath dir)) =
      ⟨"", (all.filter isEntry).filter fun e => !hasId id e⟩ := by
    rw [hothers _ hmeta, Function.update_self, readMetaFile_removed]
  refine ⟨fun path hpath htop hprofile => ?_, fun hprofile => ?_, ?_, ?_, hmode⟩
  · rw [hothers path htop, Function.update_of_ne hpath, Function.update_of_ne hprofile]
  · by_cases htop : profilePath dir id = topPath dir
    · rw [htop, hrevert]
      refine revertTop_missing true ?_
      rw [Function.update_of_ne hmeta.symm, ← htop, Function.update_self]
    · rw [hothers _ htop, Function.update_of_ne hprofile, Function.update_self]
  · rw [hread]
  · rw [hread, readMetaFile]
    dsimp only
    rw [hall]
    rfl

/-! ### The profile that is applied -/

theorem isEntry_registered {id : String} {entries : List Json} (h : ∀ e ∈ entries, isEntry e = true) :
    ∀ e ∈ registered id entries, isEntry e = true := by
  rw [registered]
  split
  · exact h
  · intro e he
    obtain he | he := List.mem_append.1 he
    · exact h e he
    · obtain rfl := List.mem_singleton.1 he
      rfl

/-- The entry that apply adds is the one that revert removes. -/
theorem filter_registered (id : String) (entries : List Json) :
    (registered id entries).filter (fun e => !hasId id e) =
      entries.filter fun e => !hasId id e := by
  rw [registered]
  split
  · rfl
  · rw [List.filter_append, List.filter_cons_of_neg (by simp [hasId, Json.get]),
      List.filter_nil, List.append_nil]

theorem listsEntries_registered {id : String} {entries : List Json}
    (h : ∀ e ∈ entries, isEntry e = true) :
    listsEntries (.json (.object
      [("appliedId", .string id), ("entries", .array (registered id entries))])) = true := by
  have hnull : (registered id entries).any Json.isNull = false := by
    rw [List.any_eq_false]
    intro e he hnull
    have hentry := isEntry_registered h e he
    cases e with
    | null => cases hentry
    | _ => cases hnull
  rw [listsEntries]
  have hremove : removeEntry (some (.string id)) (some (.array (registered id entries))) =
      some ((registered id entries).filter fun e => !strictEquals (e.get "id") (some (.string id))) := by
    rw [removeEntry, hnull]
    rfl
  exact (congrArg (fun r => !Val.truthy (some (.string id)) || Option.isSome r) hremove).trans
    (Bool.or_true _)

/-- Nothing was written, or the profile was and is the applied one. -/
theorem apply_spec (dir : Location) (values : Fields) (uuid : String) (files : Files) :
    let applied := applyConfigLibraryProfile dir values uuid files
    let mf := readMetaFile (files (metaPath dir))
    applied.profileId = (if mf.appliedId = "" then uuid else mf.appliedId) ∧
      ((applied.wrote = false ∧ applied.files = files ∧ mf.appliedId = applied.profileId) ∨
        (applied.wrote = true ∧
          readMetaFile (applied.files (metaPath dir)) =
            ⟨applied.profileId, registered applied.profileId mf.entries⟩ ∧
          listsEntries (applied.files (metaPath dir)) = true ∧
          ∀ path, path ≠ metaPath dir → path ≠ topPath dir →
            path ≠ profilePath dir applied.profileId → applied.files path = files path)) := by
  intro applied mf
  have hentries : ∀ e ∈ mf.entries, isEntry e = true := fun e he => (List.mem_filter.1 he).2
  have hmeta := metaPath_ne_topPath dir
  simp only [applied, applyConfigLibraryProfile]
  change _ = (if mf.appliedId = "" then uuid else mf.appliedId) ∧ _
  generalize (if (readMetaFile (files (metaPath dir))).appliedId = "" then uuid
    else (readMetaFile (files (metaPath dir))).appliedId) = profileId
  split
  · next h =>
    refine ⟨rfl, .inl ⟨rfl, rfl, ?_⟩⟩
    simp only [Bool.and_eq_true, decide_eq_true_eq] at h
    exact h.1.1
  · dsimp only
    refine ⟨rfl, .inr ⟨rfl, ?_, ?_, fun path hpath htop hprofile => ?_⟩⟩
    · rw [Function.update_of_ne hmeta, Function.update_self]
      have hfilter : (registered profileId mf.entries).filter isEntry =
          registered profileId mf.entries := List.filter_eq_self.2 (isEntry_registered hentries)
      exact congrArg (MetaFile.mk profileId) hfilter
    · rw [Function.update_of_ne hmeta, Function.update_self]
      exact listsEntries_registered hentries
    · rw [Function.update_of_ne htop, Function.update_of_ne hpath, Function.update_of_ne hprofile]

/-- Disabling does not throw where the entries of `_meta.json` are listed, and enabling leaves them
so; what it leaves is what the user had but for the profile that was applied, or that enabling has
made, with no applied id and no deployment mode. -/
theorem revert_apply (dir : Location) (values : Fields) (uuid : String) (huuid : uuid ≠ "")
    (files : Files) :
    let applied := applyConfigLibraryProfile dir values uuid files
    let reverted := revertConfigLibraryProfile dir applied.files
    (listsEntries (files (metaPath dir)) = true →
        (revertConfigLibraryProfile dir files).reverted.isSome = true) ∧
      (listsEntries (files (metaPath dir)) = true ∨ applied.wrote = true →
        reverted.reverted.isSome = true) ∧
      (reverted.reverted.isSome = true → Disabled dir
        (if (readMetaFile (files (metaPath dir))).appliedId = "" then uuid
          else (readMetaFile (files (metaPath dir))).appliedId) files reverted.files) := by
  intro applied reverted
  obtain ⟨hid, happly⟩ := apply_spec dir values uuid files
  have hne : applied.profileId ≠ "" := by
    rw [hid]
    split
    · exact huuid
    · assumption
  rw [← hid]
  refine ⟨fun h => revert_isSome.trans h, ?_⟩
  obtain ⟨hwrote, hfiles, happlied⟩ | ⟨-, hread, hlists, hothers⟩ := happly
  · have hreverted : reverted = revertConfigLibraryProfile dir files :=
      congrArg (revertConfigLibraryProfile dir) hfiles
    rw [hreverted]
    refine ⟨fun h => ?_, revert_disabled hne happlied⟩
    obtain h | h := h
    · exact revert_isSome.trans h
    · exact absurd (hwrote.symm.trans h) Bool.false_ne_true
  · have hok : reverted.reverted.isSome = true := revert_isSome.trans hlists
    have hdisabled := revert_disabled hne (congrArg MetaFile.appliedId hread) hok
    refine ⟨fun _ => hok, fun _ => ⟨fun path hpath htop hprofile => ?_, hdisabled.profile,
      hdisabled.appliedId, ?_, hdisabled.deploymentMode⟩⟩
    · exact (hdisabled.others path hpath htop hprofile).trans (hothers path hpath htop hprofile)
    · rw [hdisabled.entries, congrArg MetaFile.entries hread]
      exact filter_registered _ _

def home : Location := ["Users", "me"]

/-- A library with a profile that is not applied. -/
def unappliedFiles : Files :=
  let dir := getClaude3pDir home none false
  Function.update (Function.update (fun _ => .missing) (profilePath dir "mine") (.json (.object [])))
    (metaPath dir) (.json (.object [("appliedId", .string ""), ("entries", .array
      [.object [("id", .string "mine"), ("name", .string "Mine")]])]))

/-- Where nothing was applied, the user has everything back. -/
theorem revert_apply_mine :
    let dir := getClaude3pDir home none false
    let applied := applyConfigLibraryProfile dir (gatewayProfile "/Users/me" "http://127.0.0.1:4141")
      "u-1" unappliedFiles
    let reverted := revertConfigLibraryProfile dir applied.files
    reverted.reverted.isSome = true ∧ Disabled dir "u-1" unappliedFiles reverted.files := by
  intro dir applied reverted
  obtain ⟨-, hok, hdisabled⟩ := revert_apply dir
    (gatewayProfile "/Users/me" "http://127.0.0.1:4141") "u-1" (by decide) unappliedFiles
  have hsome := hok (.inl rfl)
  exact ⟨hsome, hdisabled hsome⟩

/-- A deployment mode of the user's own is taken away. -/
theorem not_restored :
    ¬ ∀ (dir : Location) (values : Fields) (uuid : String) (files : Files), uuid ≠ "" →
      ((readJsonObject ((revertConfigLibraryProfile dir
        (applyConfigLibraryProfile dir values uuid files).files).files (topPath dir))).getD []).get
          "deploymentMode" =
        ((readJsonObject (files (topPath dir))).getD []).get "deploymentMode" := by
  intro h
  let dir := getClaude3pDir home none false
  let files : Files := Function.update (fun _ => .missing) (topPath dir)
    (.json (.object [("deploymentMode", .string "1p")]))
  have hmode := h dir [] "u-1" files (by decide)
  have hmeta : files (metaPath dir) = .missing :=
    Function.update_of_ne (metaPath_ne_topPath dir) _ _
  have htop : files (topPath dir) = .json (.object [("deploymentMode", .string "1p")]) :=
    Function.update_self _ _ _
  obtain ⟨hid, happly⟩ := apply_spec dir [] "u-1" files
  rw [hmeta] at hid happly
  obtain ⟨-, -, happlied⟩ | ⟨-, -, hlists, -⟩ := happly
  · exact absurd (happlied.trans hid) (by decide)
  · rw [deploymentMode_of_revert (revert_isSome.trans hlists), htop] at hmode
    cases hmode

end Maximal.Apps.ClaudeDesktop
