import Maximal.Lib.Js.JsonText
import Maximal.Lib.Runs

/-!
# The update manifest

One manifest, one cache, two readers: the update notice and the floor under the versions that are
still served.

## Main definitions

- `isNewerVersion` — precedence of versions
- `parseManifest` — what a manifest says about a channel
- `Checker.step` — calls of the readers and answers to fetches, one after the other
- `Harmless` — an answer without a usable version tells nothing new

## Main results

- `facts_kept_iff` — when the known facts are those of the last usable manifest
-/

namespace Maximal.Update

open Js Runs

/-! ## Versions -/

/-- `Number.parseInt(s, 10) || 0`. -/
def parseIntOrZero (s : List Char) : ℤ :=
  let s := s.dropWhile isWhite
  let negative := s.head? = some '-'
  let digits := (if negative ∨ s.head? = some '+' then s.tail else s).takeWhile Char.isDigit
  let n : ℤ := Nat.ofDigitChars 10 digits 0
  if negative then -n else n

/-- The code units of a text; a character beyond the basic plane has two. -/
def codeUnits (s : List Char) : List ℕ :=
  s.flatMap fun c =>
    if c.toNat < 0x10000 then [c.toNat]
    else [0xD800 + (c.toNat - 0x10000) / 0x400, 0xDC00 + (c.toNat - 0x10000) % 0x400]

structure Semver where
  major : ℤ
  minor : ℤ
  patch : ℤ
  prerelease : List (List Char)

/-- The text without the `v` in front. -/
def dropV (s : List Char) : List Char := if s.head? = some 'v' then s.tail else s

def parseSemver (v : String) : Semver :=
  let raw := dropV v.toList
  let core := raw.takeWhile (· ≠ '-')
  let parts := (core.splitOn '.').map parseIntOrZero
  ⟨parts.getD 0 0, parts.getD 1 0, parts.getD 2 0,
    match raw.dropWhile (· ≠ '-') with
    | [] => []
    | _ :: prerelease => prerelease.splitOn '.'⟩

def isNumeric (id : List Char) : Bool := id ≠ [] && id.all Char.isDigit

/-- Whether the first list of identifiers comes later than the second. -/
def newerPrerelease : List (List Char) → List (List Char) → Bool
  | [], _ => false
  | _ :: _, [] => true
  | a :: as, b :: bs =>
    if isNumeric a && isNumeric b then
      if parseIntOrZero a ≠ parseIntOrZero b then parseIntOrZero b < parseIntOrZero a
      else newerPrerelease as bs
    else if isNumeric a ≠ isNumeric b then !isNumeric a
    else if a ≠ b then codeUnits b < codeUnits a
    else newerPrerelease as bs

def isNewerVersion (a b : String) : Bool :=
  let a := parseSemver a
  let b := parseSemver b
  if a.major ≠ b.major then b.major < a.major
  else if a.minor ≠ b.minor then b.minor < a.minor
  else if a.patch ≠ b.patch then b.patch < a.patch
  else if a.prerelease = [] ∨ b.prerelease = [] then b.prerelease ≠ []
  else newerPrerelease a.prerelease b.prerelease

/-- The version without the suffix of a local build. -/
def normalizeCurrent (version : String) : String :=
  let cs := version.toList
  match cs.tails.findIdx? "-dev+".toList.isPrefixOf with
  | none => version
  | some i => String.ofList (cs.take i)

example : isNewerVersion "1.10.0" "v1.9.3" := by decide
example : isNewerVersion "1.0.0" "1.0.0-rc.1" := by decide
example : normalizeCurrent "0.4.35-dev+abc" = "0.4.35" := by decide

/-! ## The manifest -/

def isVersionChar (c : Char) : Bool := c.isAlphanum || c = '.'

/-- The match of `VERSION_RE`: three numbers and perhaps a prerelease. -/
def matchVersion (s : String) : Option String :=
  let raw := dropV s.toList
  let parts := (raw.takeWhile (· ≠ '-')).splitOn '.'
  let prereleaseOk : Bool :=
    match raw.dropWhile (· ≠ '-') with
    | [] => true
    | _ :: prerelease => prerelease ≠ [] && prerelease.all isVersionChar
  if parts.length = 3 ∧ parts.all isNumeric ∧ prereleaseOk then some (String.ofList raw) else none

/-- What a manifest says about one channel. -/
structure ManifestFacts where
  latest : Option String
  minSupported : Option String
  deriving DecidableEq

def ManifestFacts.unknown : ManifestFacts := ⟨none, none⟩

def readChannelVersion (parsed : Json) (channel field : String) : Option String :=
  let value := ((Val.optProp (some parsed) "channels").optProp channel).optProp field
  value.asString.bind fun text => matchVersion (trim text)

/-- `parse` stands for `JSON.parse`. -/
def parseManifest (parse : String → Option Json) (body channel : String) : ManifestFacts :=
  match parse body with
  | none => .unknown
  | some parsed =>
    ⟨readChannelVersion parsed channel "version",
      readChannelVersion parsed channel "min_supported_version"⟩

/-! ## Reading and refreshing -/

def DOWNLOAD_URL : String := "https://mxml.sh/"

/-- Times are in milliseconds. -/
def CACHE_TTL_MS : ℤ := 6 * 60 * 60 * 1000

def REFRESH_RETRY_MS : ℤ := 5 * 60 * 1000

structure Cache where
  atMs : ℤ
  facts : ManifestFacts
  deriving DecidableEq

/-- The state of the module; `inFlight` tells that a fetch is not answered yet. -/
structure Checker where
  cache : Option Cache
  lastError : Option String
  inFlight : Bool
  nextAttemptAtMs : ℤ
  deriving DecidableEq

/-- How a fetch ends: it throws, perhaps an error with a message, or the body has been read. -/
inductive Outcome where
  | threw (message : Option String)
  | response (status : ℕ) (body : String)

inductive Event where
  /-- `getUpdateStatus` up to its `await`. -/
  | status (enabled force : Bool) (now : ℤ)
  /-- `checkVersionFloor`. -/
  | floor (enforced : Bool) (now : ℤ)
  /-- The fetch of `refreshManifest` ends. -/
  | answer (outcome : Outcome) (now : ℤ)

/-- `res.ok`. -/
def isOkStatus (status : ℕ) : Bool := 200 ≤ status && status < 300

namespace Checker

/-- The start of a fetch, unless one is in flight, the cache is fresh or the last attempt is too
recent. -/
def ensureManifest (force : Bool) (now : ℤ) (c : Checker) : Checker :=
  if c.inFlight then c
  else if !force && c.cache.any fun cache => now - cache.atMs < CACHE_TTL_MS then c
  else if !force && now < c.nextAttemptAtMs then c
  else { c with nextAttemptAtMs := now + REFRESH_RETRY_MS, inFlight := true }

section

variable (parse : String → Option Json) (channel : String)

/-- `refreshManifest` from the answer on. -/
def refreshManifest (outcome : Outcome) (now : ℤ) (c : Checker) : Checker :=
  match outcome with
  | .threw (some message) =>
    { c with lastError := some ("network error: " ++ message), inFlight := false }
  | .threw none => { c with lastError := some "update check failed", inFlight := false }
  | .response status body =>
    if isOkStatus status then
      let facts := parseManifest parse body channel
      { c with
        lastError :=
          if facts.latest = none then some "manifest had no usable version for this channel"
          else none
        cache := some ⟨now, facts⟩
        inFlight := false }
    else
      { c with
        lastError := some ("manifest fetch returned HTTP " ++ status.repr)
        inFlight := false }

def step (e : Event) (c : Checker) : Option Checker :=
  match e with
  | .status enabled force now => some (if enabled then c.ensureManifest force now else c)
  | .floor enforced now => some (if enforced then c.ensureManifest false now else c)
  | .answer outcome now =>
    if c.inFlight then some (c.refreshManifest parse channel outcome now) else none

end

/-- The facts that the readers see. -/
def known (c : Checker) : ManifestFacts := c.cache.elim .unknown (·.facts)

end Checker

/-- What `getUpdateStatus` reports; `checkedAtMs` is the time before it is written out. -/
structure UpdateStatus where
  current : String
  latest : Option String
  updateAvailable : Bool
  url : String
  enabled : Bool
  checkedAtMs : Option ℤ
  lastError : Option String
  minSupported : Option String

/-- `getUpdateStatus` after its `await`. -/
def getUpdateStatus (enabled : Bool) (current : String) (c : Checker) : UpdateStatus :=
  if enabled then
    { current
      latest := c.known.latest
      updateAvailable := c.known.latest.any fun latest =>
        isNewerVersion latest (normalizeCurrent current)
      url := DOWNLOAD_URL
      enabled := true
      checkedAtMs := c.cache.map (·.atMs)
      lastError := c.lastError
      minSupported := c.known.minSupported }
  else
    { current
      latest := none
      updateAvailable := false
      url := DOWNLOAD_URL
      enabled := false
      checkedAtMs := c.cache.map (·.atMs)
      lastError := none
      minSupported := c.known.minSupported }

structure VersionFloorVerdict where
  current : String
  minSupported : Option String
  retired : Bool
  deriving DecidableEq

/-- What `checkVersionFloor` returns; the fetch it may start is left to `Checker.step`. -/
def checkVersionFloor (enforced : Bool) (current : String) (c : Checker) : VersionFloorVerdict :=
  if enforced then
    ⟨current, c.known.minSupported,
      c.known.minSupported.any fun minSupported =>
        isNewerVersion minSupported (normalizeCurrent current)⟩
  else ⟨current, none, false⟩

/-! ## What is known -/

section

variable (parse : String → Option Json) (channel : String)

/-- The facts of a usable manifest: the answer is a success and names a version. -/
def usableFacts : Outcome → Option ManifestFacts
  | .threw _ => none
  | .response status body =>
    let facts := parseManifest parse body channel
    if isOkStatus status ∧ facts.latest ≠ none then some facts else none

/-- What an event teaches about the channel. -/
def learn (facts : ManifestFacts) : Event → ManifestFacts
  | .answer outcome _ => (usableFacts parse channel outcome).getD facts
  | _ => facts

/-- The facts of the last usable manifest, or those that were known before. -/
def lastUsable (facts : ManifestFacts) (events : List Event) : ManifestFacts :=
  events.foldl (learn parse channel) facts

/-- The readers report these facts. -/
structure Shows (facts : ManifestFacts) (c : Checker) : Prop where
  known : c.known = facts
  latest : ∀ current, (getUpdateStatus true current c).latest = facts.latest
  minSupported : ∀ current, (getUpdateStatus true current c).minSupported = facts.minSupported
  retired : ∀ current, (checkVersionFloor true current c).retired =
    facts.minSupported.any fun minSupported => isNewerVersion minSupported (normalizeCurrent current)

/-- A success without a usable version says what is known already. -/
def Harmless : Event → Checker → Prop
  | .answer (.response status body) _, c =>
    c.inFlight → isOkStatus status → (parseManifest parse body channel).latest = none →
      parseManifest parse body channel = c.known
  | _, _ => True

variable {parse channel}

theorem shows_of_known {facts : ManifestFacts} {c : Checker} (h : c.known = facts) :
    Shows facts c := by
  subst h
  exact ⟨rfl, fun _ => rfl, fun _ => rfl, fun _ => rfl⟩

theorem known_ensureManifest (force : Bool) (now : ℤ) (c : Checker) :
    (c.ensureManifest force now).known = c.known := by
  rw [Checker.ensureManifest]
  split
  · rfl
  · split
    · rfl
    · split <;> rfl

theorem known_refreshManifest (outcome : Outcome) (now : ℤ) (c : Checker) :
    (c.refreshManifest parse channel outcome now).known =
      match outcome with
      | .threw _ => c.known
      | .response status body =>
        if isOkStatus status then parseManifest parse body channel else c.known := by
  cases outcome with
  | threw message => cases message <;> rfl
  | response status body =>
    dsimp only
    rw [Checker.refreshManifest]
    by_cases hok : isOkStatus status = true
    · rw [if_pos hok, if_pos hok]
      rfl
    · rw [if_neg hok, if_neg hok]
      rfl

/-- The step lemma: an event teaches what it should exactly when it is harmless. -/
theorem known_step_iff {e : Event} {c c' : Checker}
    (h : Checker.step parse channel e c = some c') :
    c'.known = learn parse channel c.known e ↔ Harmless parse channel e c := by
  cases e with
  | status enabled force now =>
    obtain rfl := Option.some.inj h
    refine iff_of_true ?_ trivial
    split
    · exact known_ensureManifest force now c
    · rfl
  | floor enforced now =>
    obtain rfl := Option.some.inj h
    refine iff_of_true ?_ trivial
    split
    · exact known_ensureManifest false now c
    · rfl
  | answer outcome now =>
    rw [Checker.step] at h
    by_cases hflight : c.inFlight = true
    · rw [if_pos hflight] at h
      obtain rfl := Option.some.inj h
      rw [known_refreshManifest, learn]
      cases outcome with
      | threw message => exact iff_of_true rfl trivial
      | response status body =>
        simp only [usableFacts, Harmless]
        by_cases hok : isOkStatus status = true
        · by_cases hlatest : (parseManifest parse body channel).latest = none
          · simp [hflight, hok, hlatest]
          · simp [hok, hlatest]
        · simp [hok]
    · rw [if_neg hflight] at h
      cases h

theorem harmless_of_step_eq_none {e : Event} {c : Checker}
    (h : Checker.step parse channel e c = none) : Harmless parse channel e c := by
  cases e with
  | answer outcome now =>
    cases outcome with
    | threw => trivial
    | response status body =>
      intro hflight
      rw [Checker.step, if_pos hflight] at h
      cases h
  | _ => cases h

/-- Every state of a run shows the facts of the last usable manifest exactly when every answer of
the run is harmless. -/
theorem facts_kept_iff (parse : String → Option Json) (channel : String) (c : Checker)
    (events : List Event) :
    Meets (Checker.step parse channel) (Harmless parse channel) events c ↔
      ∀ pre post c', events = pre ++ post → exec (Checker.step parse channel) pre c = some c' →
        Shows (lastUsable parse channel c.known pre) c' := by
  induction events generalizing c with
  | nil =>
    refine iff_of_true trivial fun pre post c' hsplit hexec => ?_
    obtain ⟨rfl, rfl⟩ := List.append_eq_nil_iff.1 hsplit.symm
    obtain rfl := Option.some.inj hexec
    exact shows_of_known rfl
  | cons e events ih =>
    constructor
    · rintro ⟨hharmless, hrest⟩ pre post c' hsplit hexec
      cases pre with
      | nil =>
        obtain rfl := Option.some.inj hexec
        exact shows_of_known rfl
      | cons e' pre =>
        obtain ⟨rfl, rfl⟩ := List.cons.inj hsplit
        obtain ⟨t, ht, hexec⟩ := Option.bind_eq_some_iff.1 hexec
        have hknown := (known_step_iff ht).2 hharmless
        have hshows := (ih t).1 (hrest t ht) pre post c' rfl hexec
        rwa [hknown] at hshows
    · intro hall
      refine ⟨?_, fun t ht => ?_⟩
      · cases hstep : Checker.step parse channel e c with
        | none => exact harmless_of_step_eq_none hstep
        | some t =>
          have hone : exec (Checker.step parse channel) [e] c = some t := by
            rw [exec, hstep]
            rfl
          exact (known_step_iff hstep).1 (hall [e] events t rfl hone).known
      · refine (ih t).2 fun pre post c' hsplit hexec => ?_
        have hhead : exec (Checker.step parse channel) [e] c = some t := by
          rw [exec, Option.mem_def.1 ht]
          rfl
        have hknown := (hall [e] events t rfl hhead).known
        have hshows := hall (e :: pre) post c' (by rw [hsplit]; rfl)
          (by rw [exec, Option.mem_def.1 ht]; exact hexec)
        rw [show t.known = learn parse channel c.known e from hknown]
        exact hshows

end

/-- A version and a floor are known, and a fetch is in flight. -/
def floorKnown : Checker := ⟨some ⟨0, ⟨some "0.9.0", some "0.6.1"⟩⟩, none, true, 300000⟩

/-- A page that is no manifest, and no JSON either, comes with status 200. -/
def portalPage : Event := .answer (.response 200 "<html>captive portal</html>") 1

theorem not_all_facts_kept :
    ¬ ∀ (parse : String → Option Json) (channel : String) (c : Checker) (events : List Event)
      (c' : Checker), exec (Checker.step parse channel) events c = some c' →
      Shows (lastUsable parse channel c.known events) c' := by
  intro h
  have hshows := h Json.parse "stable" floorKnown [portalPage] _ rfl
  have hretired := hshows.retired "0.6.0"
  revert hretired
  decide +kernel

end Maximal.Update
