import Maximal.Responses.StreamIdSync
import Maximal.Lib.Js.Meaning

/-!
# Item ids over a whole stream

An item keeps the id it was announced with in every later frame of its output index, until the
index is announced again. Nothing else of a frame changes, and frames of one index do not touch
those of another.

## Main definitions

- `passAll` — the frames of a stream, each with what is written for it
- `AgreeBut` — two values agree but for one field

## Main results

- `pass_eq` — one frame, by what it holds
- `passAll_filter` — the frames of one index can be left out
- `ids_synchronised`
-/

namespace Maximal.Responses

open Js Emitter

/-- A frame of the passthrough; the suffix is the random part of an id made up for it. -/
structure PassFrame where
  event : Option String
  data : String
  randomSuffix : String
  deriving DecidableEq

namespace PassFrame

variable (frame : PassFrame)

def parsed : Val := Json.parse frame.data

def index : Option String := frame.parsed.bind readOutputIndex

/-- The item, a list included. -/
def item : Val := frame.parsed.bind asOutputItemFrame

def isAdded : Bool := frame.event = some "response.output_item.added"

def isDone : Bool := frame.event = some "response.output_item.done"

def pass : StreamIdSync String :=
  fixStreamIds Json.parse Json.stringify frame.randomSuffix frame.data frame.event

end PassFrame

/-- The frames that are passed, each with what is written for it; a throw ends the stream. -/
def passAll (tracker : StreamIdTracker) : List PassFrame → List (PassFrame × String)
  | [] => []
  | frame :: frames =>
    match frame.pass tracker with
    -- an output index that has no text
    | .error _ => []
    | .ok (text, tracker, _) => (frame, text) :: passAll tracker frames

/-! ## One frame -/

def StreamIdTracker.remember (tracker : StreamIdTracker) (index : Option String) (id : Json) :
    StreamIdTracker :=
  match index with
  | none => tracker
  | some k => ⟨tracker.outputItems.set k id⟩

/-- The id an item is announced with: its own, or one made up. -/
def announcedId (randomSuffix : String) (parsed item : Json) : Except TypeError Json :=
  if (item.get "id").truthy then .ok ((item.get "id").orElse .null)
  else (parsed.get "output_index").text.map fun index =>
    .string ("oi_" ++ index ++ "_" ++ randomSuffix)

/-- The frame with an id written into its item. -/
def withItemId (id item parsed : Json) : Json := assign "item" (assign "id" id item) parsed

def announced (parsed item id : Json) : Json :=
  if (item.get "id").truthy then parsed else withItemId id item parsed

section

variable (stringify : Json → String) (randomSuffix : String) (parsed item : Json)
  (tracker : StreamIdTracker)

theorem handleAddedItem_eq :
    handleAddedItem stringify randomSuffix parsed item tracker =
      (announcedId randomSuffix parsed item).map fun id =>
        (stringify (announced parsed item id), tracker.remember (readOutputIndex parsed) id, []) := by
  rw [handleAddedItem, announcedId]
  cases htruthy : (item.get "id").truthy with
  | true =>
    rw [if_pos rfl, if_pos rfl]
    cases hindex : readOutputIndex parsed <;> simp [Except.map, announced, htruthy] <;> rfl
  | false =>
    rw [if_neg Bool.false_ne_true, if_neg Bool.false_ne_true]
    cases (parsed.get "output_index").text with
    | error e => rfl
    | ok index =>
      cases hindex : readOutputIndex parsed <;> simp [Except.map, announced, htruthy] <;> rfl

theorem handleDoneItem_eq :
    handleDoneItem stringify parsed item tracker =
      .ok (stringify ((knownId tracker parsed).elim parsed (withItemId · item parsed)),
        tracker, []) := by
  rw [handleDoneItem, current_bind]
  cases knownId tracker parsed <;> rfl

theorem handleItemId_eq :
    handleItemId stringify parsed tracker =
      .ok (stringify ((knownId tracker parsed).elim parsed (assign "item_id" · parsed)),
        tracker, []) := by
  rw [handleItemId, current_bind]
  cases knownId tracker parsed <;> rfl

end

/-- What is done with a frame. -/
inductive FrameRole where
  | raw
  | added (parsed item : Json)
  | done (parsed item : Json)
  | other (parsed : Json)

namespace PassFrame

variable (frame : PassFrame) (tracker : StreamIdTracker)

def role : FrameRole :=
  match frame.parsed with
  | none => .raw
  | some parsed =>
    if frame.isAdded then (asOutputItemFrame parsed).elim .raw (.added parsed)
    else if frame.isDone then (asOutputItemFrame parsed).elim .raw (.done parsed)
    else if parsed.isRecord then .other parsed
    else .raw

def passAs : FrameRole → Except TypeError (String × StreamIdTracker × List Empty)
  | .raw => .ok (frame.data, tracker, [])
  | .added parsed item =>
    (announcedId frame.randomSuffix parsed item).map fun id =>
      (Json.stringify (announced parsed item id),
        tracker.remember (readOutputIndex parsed) id, [])
  | .done parsed item =>
    .ok (Json.stringify ((knownId tracker parsed).elim parsed (withItemId · item parsed)),
      tracker, [])
  | .other parsed =>
    .ok (Json.stringify ((knownId tracker parsed).elim parsed (assign "item_id" · parsed)),
      tracker, [])

theorem pass_eq : frame.pass tracker = frame.passAs tracker frame.role := by
  rw [pass, fixStreamIds, role, parsed]
  by_cases hdata : frame.data = ""
  · have hnone : Json.parse frame.data = none := by rw [hdata]; decide
    rw [if_pos hdata, hnone]
    rfl
  rw [if_neg hdata]
  cases Json.parse frame.data with
  | none => rfl
  | some parsed =>
    dsimp only
    cases hadded : frame.isAdded with
    | true =>
      rw [if_pos (of_decide_eq_true hadded), if_pos rfl]
      cases asOutputItemFrame parsed with
      | none => rfl
      | some item => exact handleAddedItem_eq _ _ parsed item tracker
    | false =>
      rw [if_neg (of_decide_eq_false hadded), if_neg Bool.false_ne_true]
      cases hdone : frame.isDone with
      | true =>
        rw [if_pos (of_decide_eq_true hdone), if_pos rfl]
        cases asOutputItemFrame parsed with
        | none => rfl
        | some item => exact handleDoneItem_eq _ parsed item tracker
      | false =>
        rw [if_neg (of_decide_eq_false hdone), if_neg Bool.false_ne_true]
        cases hrecord : parsed.isRecord with
        | true => exact handleItemId_eq _ parsed tracker
        | false => rfl

/-- What a frame is when something is done with it. -/
inductive Plays : FrameRole → Prop
  | unread (hparsed : frame.parsed = none) : Plays .raw
  | noItem {v : Json} (hparsed : frame.parsed = some v)
      (hevent : frame.isAdded = true ∨ frame.isDone = true) (hitem : asOutputItemFrame v = none) :
      Plays .raw
  | noRecord {v : Json} (hparsed : frame.parsed = some v) (hadded : frame.isAdded = false)
      (hdone : frame.isDone = false) (hrecord : v.isRecord = false) : Plays .raw
  | added {v item : Json} (hparsed : frame.parsed = some v) (hadded : frame.isAdded = true)
      (hitem : asOutputItemFrame v = some item) : Plays (.added v item)
  | done {v item : Json} (hparsed : frame.parsed = some v) (hadded : frame.isAdded = false)
      (hdone : frame.isDone = true) (hitem : asOutputItemFrame v = some item) :
      Plays (.done v item)
  | other {v : Json} (hparsed : frame.parsed = some v) (hadded : frame.isAdded = false)
      (hdone : frame.isDone = false) (hrecord : v.isRecord = true) : Plays (.other v)

theorem plays_role : frame.Plays frame.role := by
  rw [role]
  cases hparsed : frame.parsed with
  | none => exact .unread hparsed
  | some v =>
    dsimp only
    cases hadded : frame.isAdded with
    | true =>
      rw [if_pos rfl]
      cases hitem : asOutputItemFrame v with
      | none => exact .noItem hparsed (.inl hadded) hitem
      | some item => exact .added hparsed hadded hitem
    | false =>
      rw [if_neg Bool.false_ne_true]
      cases hdone : frame.isDone with
      | true =>
        rw [if_pos rfl]
        cases hitem : asOutputItemFrame v with
        | none => exact .noItem hparsed (.inr hdone) hitem
        | some item => exact .done hparsed hadded hdone hitem
      | false =>
        rw [if_neg Bool.false_ne_true]
        cases hrecord : v.isRecord with
        | true => exact .other hparsed hadded hdone hrecord
        | false => exact .noRecord hparsed hadded hdone hrecord

end PassFrame

/-! ## Other frames' indices -/

/-- The ids of all indices but one are the same. -/
def StreamIdTracker.AgreeOff (k : String) (s t : StreamIdTracker) : Prop :=
  ∀ k', k' ≠ k → s.outputItems.get k' = t.outputItems.get k'

namespace StreamIdTracker

variable {k : String} {s t : StreamIdTracker}

theorem AgreeOff.remember (h : AgreeOff k s t) (index : Option String) (id : Json) :
    AgreeOff k (s.remember index id) (t.remember index id) := by
  cases index with
  | none => exact h
  | some j =>
    intro k' hk'
    change (s.outputItems.set j id).get k' = (t.outputItems.set j id).get k'
    by_cases hj : k' = j
    · rw [hj, Entries.get_set_self, Entries.get_set_self]
    · rw [Entries.get_set_of_ne _ _ hj, Entries.get_set_of_ne _ _ hj]
      exact h k' hk'

theorem agreeOff_remember (s : StreamIdTracker) (k : String) (id : Json) :
    AgreeOff k (s.remember (some k) id) s :=
  fun _ hk' => Entries.get_set_of_ne s.outputItems id hk'

theorem AgreeOff.knownId (h : AgreeOff k s t) {v : Json} (hv : readOutputIndex v ≠ some k) :
    Responses.knownId s v = Responses.knownId t v := by
  rw [Responses.knownId, Responses.knownId]
  cases hindex : readOutputIndex v with
  | none => rfl
  | some k' =>
    rw [Option.bind_some, Option.bind_some, h k' fun hk' => hv (hindex.trans (congrArg some hk'))]

end StreamIdTracker

/-- A numeric output index can be made part of an id. -/
theorem isOk_announcedId {v : Json} {k : String} (hindex : readOutputIndex v = some k)
    (randomSuffix : String) (item : Json) :
    ∃ id, announcedId randomSuffix v item = .ok id := by
  rw [announcedId]
  split
  · exact ⟨_, rfl⟩
  · rw [readOutputIndex] at hindex
    split at hindex
    · next n hn => exact ⟨_, by rw [hn]; rfl⟩
    · cases hindex

theorem readOutputIndex_of_index {frame : PassFrame} {v : Json} (hparsed : frame.parsed = some v) :
    frame.index = readOutputIndex v := by
  rw [PassFrame.index, hparsed, Option.bind_some]

/-- A frame of the index changes the tracker at the index only. -/
theorem pass_of_index {frame : PassFrame} {k : String} (hindex : frame.index = some k)
    (s : StreamIdTracker) :
    ∃ text s', frame.pass s = .ok (text, s', []) ∧ s'.AgreeOff k s := by
  rw [frame.pass_eq]
  have hplays := frame.plays_role
  generalize frame.role = role at hplays
  cases hplays with
  | added hparsed _ _ =>
    have hread := (readOutputIndex_of_index hparsed).symm.trans hindex
    obtain ⟨id, hid⟩ := isOk_announcedId hread frame.randomSuffix _
    refine ⟨_, _, by rw [PassFrame.passAs, hid]; rfl, ?_⟩
    rw [hread]
    exact s.agreeOff_remember k id
  | _ => exact ⟨_, _, rfl, fun _ _ => rfl⟩

/-- A frame of another index does not see the id of the index. -/
theorem pass_of_agreeOff {frame : PassFrame} {k : String} (hindex : frame.index ≠ some k)
    {s t : StreamIdTracker} (h : s.AgreeOff k t) :
    (∃ e, frame.pass s = .error e ∧ frame.pass t = .error e) ∨
      ∃ text s' t', frame.pass s = .ok (text, s', []) ∧ frame.pass t = .ok (text, t', []) ∧
        s'.AgreeOff k t' := by
  rw [frame.pass_eq, frame.pass_eq]
  have hplays := frame.plays_role
  generalize frame.role = role at hplays
  cases hplays with
  | @added v item hparsed _ _ =>
    rw [PassFrame.passAs, PassFrame.passAs]
    cases announcedId frame.randomSuffix v item with
    | error e => exact .inl ⟨e, rfl, rfl⟩
    | ok id => exact .inr ⟨_, _, _, rfl, rfl, h.remember _ id⟩
  | done hparsed _ _ _ =>
    rw [readOutputIndex_of_index hparsed] at hindex
    rw [PassFrame.passAs, PassFrame.passAs, h.knownId hindex]
    exact .inr ⟨_, _, _, rfl, rfl, h⟩
  | other hparsed _ _ _ =>
    rw [readOutputIndex_of_index hparsed] at hindex
    rw [PassFrame.passAs, PassFrame.passAs, h.knownId hindex]
    exact .inr ⟨_, _, _, rfl, rfl, h⟩
  | _ => exact .inr ⟨_, _, _, rfl, rfl, h⟩

/-- The frames of one index can be left out without a trace in the others. -/
theorem passAll_filter (k : String) (frames : List PassFrame) {s t : StreamIdTracker}
    (h : s.AgreeOff k t) :
    (passAll s frames).filter (fun p => p.1.index ≠ some k) =
      passAll t (frames.filter fun frame => frame.index ≠ some k) := by
  induction frames generalizing s t with
  | nil => rfl
  | cons frame frames ih =>
    rw [passAll]
    by_cases hindex : frame.index = some k
    -- left out on the right; on the left it changes nothing that the others see
    · obtain ⟨text, s', hpass, hagree⟩ := pass_of_index hindex s
      have hskip : s'.AgreeOff k t := fun k' hk' => (hagree k' hk').trans (h k' hk')
      rw [hpass]
      dsimp only
      rw [List.filter_cons_of_neg (by simpa using hindex),
        List.filter_cons_of_neg (by simpa using hindex)]
      exact ih hskip
    · rw [List.filter_cons_of_pos (by simpa using hindex), passAll]
      obtain ⟨e, hs, ht⟩ | ⟨text, s', t', hs, ht, hagree⟩ := pass_of_agreeOff hindex h
      · rw [hs, ht]
        rfl
      · rw [hs, ht]
        dsimp only
        rw [List.filter_cons_of_pos (by simpa using hindex), ih hagree]

/-! ## What a frame keeps -/

/-- The values agree but for the field `k`; values that are no objects agree. -/
def AgreeBut (k : String) : Val → Val → Prop
  | some (.object fields), some (.object fields') =>
    ∀ key, key ≠ k → (fields'.lookup key).map Json.meaning = (fields.lookup key).map Json.meaning
  | v, w => w.map Json.meaning = v.map Json.meaning

theorem AgreeBut.of_meaning {k : String} {v w : Json} (hv : ∀ fields, v ≠ .object fields)
    (h : w.meaning = v.meaning) : AgreeBut k (some v) (some w) := by
  cases v with
  | object fields => exact absurd rfl (hv fields)
  | _ => exact congrArg some h

/-- A field is set, and the value is read again. -/
theorem agreeBut_reread_assign {v : Json} (hv : v.isProper = true) (k : String) (x : Json) :
    AgreeBut k (some v) (some (assign k x v).reread) := by
  by_cases hobject : ∃ fields, v = .object fields
  · obtain ⟨fields, rfl⟩ := hobject
    -- reading again keeps the last of equal keys, so the keys have to be distinct
    have hnodup := Json.nodup_set k x ((Json.isProper_object_iff fields).1 hv).1
    intro key hkey
    change (Json.get (Json.reread (.object (Json.set fields k x))) key).map Json.meaning = _
    rw [Json.get_reread hnodup, Json.lookup_set_of_ne _ _ hkey]
    cases hlookup : fields.lookup key with
    | none => rfl
    | some y => exact congrArg some (Json.meaning_reread y (Json.isProper_of_lookup hv hlookup))
  · have hassign : assign k x v = v := by
      cases v with
      | object fields => exact absurd ⟨fields, rfl⟩ hobject
      | _ => rfl
    rw [hassign]
    exact .of_meaning (fun fields h => hobject ⟨fields, h⟩) (Json.meaning_reread v hv)

theorem agreeBut_reread {v : Json} (hv : v.isProper = true) (k : String) :
    AgreeBut k (some v) (some v.reread) := by
  by_cases hobject : ∃ fields, v = .object fields
  · obtain ⟨fields, rfl⟩ := hobject
    intro key _
    change (Json.get (Json.reread (.object fields)) key).map Json.meaning = _
    rw [Json.get_reread ((Json.isProper_object_iff fields).1 hv).1]
    cases hlookup : fields.lookup key with
    | none => rfl
    | some y => exact congrArg some (Json.meaning_reread y (Json.isProper_of_lookup hv hlookup))
  · exact .of_meaning (fun fields h => hobject ⟨fields, h⟩) (Json.meaning_reread v hv)

theorem agreeBut_refl (k : String) (v : Val) : AgreeBut k v v := by
  cases v with
  | none => rfl
  | some v =>
    cases v with
    | object fields => exact fun _ _ => rfl
    | _ => rfl

/-- Only an object holds an item. -/
theorem fields_of_item {v item : Json} (h : asOutputItemFrame v = some item) :
    ∃ fields, v = .object fields ∧ fields.lookup "item" = some item := by
  rw [asOutputItemFrame] at h
  split at h
  · cases v with
    | object fields =>
      refine ⟨fields, rfl, ?_⟩
      change Val.asRecord (fields.lookup "item") = some item at h
      cases hlookup : fields.lookup "item" with
      | none => rw [hlookup] at h; cases h
      | some j =>
        rw [hlookup, Val.asRecord] at h
        split at h
        · exact h
        · cases h
    | _ => cases h
  · cases h

/-- A frame whose item is named keeps all but the id. -/
theorem agreeBut_withItemId {v item : Json} (hv : v.isProper = true)
    (hitem : asOutputItemFrame v = some item) (id : Json) :
    AgreeBut "item" (some v) (some (withItemId id item v).reread) ∧
      AgreeBut "id" (v.get "item") ((withItemId id item v).reread.get "item") := by
  refine ⟨agreeBut_reread_assign hv _ _, ?_⟩
  obtain ⟨fields, rfl, hlookup⟩ := fields_of_item hitem
  have hnodup := Json.nodup_set "item" (assign "id" id item) ((Json.isProper_object_iff fields).1 hv).1
  have hget : (withItemId id item (.object fields)).reread.get "item" =
      some (assign "id" id item).reread := by
    rw [withItemId, assign, Json.get_reread hnodup, Json.lookup_set_self]
    rfl
  rw [hget, Json.get, hlookup]
  exact agreeBut_reread_assign (Json.isProper_of_lookup hv hlookup) _ _

theorem agreeBut_unnamed {v item : Json} (hv : v.isProper = true)
    (hitem : asOutputItemFrame v = some item) :
    AgreeBut "item" (some v) (some v.reread) ∧ AgreeBut "id" (v.get "item") (v.reread.get "item") := by
  refine ⟨agreeBut_reread hv _, ?_⟩
  obtain ⟨fields, rfl, hlookup⟩ := fields_of_item hitem
  rw [Json.get_reread ((Json.isProper_object_iff fields).1 hv).1, Json.get, hlookup]
  exact agreeBut_reread (Json.isProper_of_lookup hv hlookup) _

/-- No JSON, no object, or an added or done frame without an item. -/
def PassFrame.HoldsNothing (frame : PassFrame) : Prop :=
  (∀ v, frame.parsed = some v → v.isRecord = false) ∨
    (frame.isAdded = true ∨ frame.isDone = true) ∧ frame.item = none

/-- The frame is written with the same values but for the id in its place. -/
def PassFrame.KeptIn (frame : PassFrame) (text : String) : Prop :=
  ∀ v, frame.parsed = some v → ∃ w, Json.parse text = some w ∧
    if frame.isAdded || frame.isDone then
      AgreeBut "item" (some v) (some w) ∧ AgreeBut "id" (v.get "item") (w.get "item")
    else AgreeBut "item_id" (some v) (some w)

theorem isRecord_of_item {v item : Json} (h : asOutputItemFrame v = some item) :
    v.isRecord = true := by
  obtain ⟨fields, rfl, -⟩ := fields_of_item h
  rfl

section Kept

variable {frame : PassFrame} {v w item : Json}

theorem item_eq (hparsed : frame.parsed = some v) : frame.item = asOutputItemFrame v := by
  rw [PassFrame.item, hparsed, Option.bind_some]

theorem not_holdsNothing_of_item (hparsed : frame.parsed = some v)
    (hitem : asOutputItemFrame v = some item) : ¬frame.HoldsNothing := by
  rintro (hnone | ⟨-, hnone⟩)
  · exact absurd (hnone v hparsed) (by rw [isRecord_of_item hitem]; decide)
  · rw [item_eq hparsed, hitem] at hnone
    cases hnone

theorem not_holdsNothing_of_other (hparsed : frame.parsed = some v)
    (hadded : frame.isAdded = false) (hdone : frame.isDone = false) (hrecord : v.isRecord = true) :
    ¬frame.HoldsNothing := by
  rintro (hnone | ⟨hevent, -⟩)
  · exact absurd (hnone v hparsed) (by rw [hrecord]; decide)
  · rw [hadded, hdone] at hevent
    exact absurd hevent (by decide)

theorem keptIn_data (frame : PassFrame) : frame.KeptIn frame.data := by
  intro v hv
  refine ⟨v, hv, ?_⟩
  split
  · exact ⟨agreeBut_refl _ _, agreeBut_refl _ _⟩
  · exact agreeBut_refl _ _

theorem keptIn_of_item (hparsed : frame.parsed = some v)
    (hevent : (frame.isAdded || frame.isDone) = true)
    (h : AgreeBut "item" (some v) (some w.reread) ∧
      AgreeBut "id" (v.get "item") (w.reread.get "item")) :
    frame.KeptIn (Json.stringify w) := by
  intro v' hv'
  obtain rfl : v = v' := Option.some.inj (hparsed.symm.trans hv')
  refine ⟨_, Json.parse_stringify_reread w, ?_⟩
  rw [if_pos hevent]
  exact h

theorem keptIn_of_other (hparsed : frame.parsed = some v)
    (hevent : (frame.isAdded || frame.isDone) = false)
    (h : AgreeBut "item_id" (some v) (some w.reread)) : frame.KeptIn (Json.stringify w) := by
  intro v' hv'
  obtain rfl : v = v' := Option.some.inj (hparsed.symm.trans hv')
  refine ⟨_, Json.parse_stringify_reread w, ?_⟩
  rw [hevent, if_neg Bool.false_ne_true]
  exact h

end Kept

theorem pass_keeps {frame : PassFrame} {s s' : StreamIdTracker} {text : String} {os : List Empty}
    (h : frame.pass s = .ok (text, s', os)) :
    (frame.HoldsNothing → text = frame.data) ∧ frame.KeptIn text := by
  rw [frame.pass_eq] at h
  have hplays := frame.plays_role
  generalize frame.role = role at hplays h
  cases hplays with
  | @added v item hparsed hadded hitem =>
    obtain ⟨id, -, heq⟩ := exists_of_map_eq_ok h
    cases heq
    have hproper := Json.isProper_parse hparsed
    have hevent : (frame.isAdded || frame.isDone) = true := by rw [hadded, Bool.true_or]
    refine ⟨fun hnothing => absurd hnothing (not_holdsNothing_of_item hparsed hitem),
      keptIn_of_item hparsed hevent ?_⟩
    -- an item that has an id of its own is passed with it
    rw [announced]
    split
    · exact agreeBut_unnamed hproper hitem
    · exact agreeBut_withItemId hproper hitem id
  | @done v item hparsed _ hdone hitem =>
    cases h
    have hproper := Json.isProper_parse hparsed
    have hevent : (frame.isAdded || frame.isDone) = true := by rw [hdone, Bool.or_true]
    refine ⟨fun hnothing => absurd hnothing (not_holdsNothing_of_item hparsed hitem),
      keptIn_of_item hparsed hevent ?_⟩
    cases knownId s v with
    | none => exact agreeBut_unnamed hproper hitem
    | some id => exact agreeBut_withItemId hproper hitem id
  | @other v hparsed hadded hdone hrecord =>
    cases h
    have hproper := Json.isProper_parse hparsed
    have hevent : (frame.isAdded || frame.isDone) = false := by rw [hadded, hdone, Bool.or_self]
    refine ⟨fun hnothing =>
        absurd hnothing (not_holdsNothing_of_other hparsed hadded hdone hrecord),
      keptIn_of_other hparsed hevent ?_⟩
    cases knownId s v with
    | none => exact agreeBut_reread hproper _
    | some id => exact agreeBut_reread_assign hproper _ id
  | _ =>
    cases h
    exact ⟨fun _ => rfl, keptIn_data frame⟩

/-! ## The id of an index -/

/-- The id of the item in a text. -/
def itemIdIn (text : String) : Val := ((Json.parse text).bind (·.get "item")).bind (·.get "id")

/-- The `item_id` in a text. -/
def fieldItemIdIn (text : String) : Val := (Json.parse text).bind (·.get "item_id")

theorem itemIdIn_unnamed {v : Json} {fields : List (String × Json)} (hv : v.isProper = true)
    (hitem : asOutputItemFrame v = some (.object fields)) :
    itemIdIn (Json.stringify v) = (fields.lookup "id").map Json.reread := by
  obtain ⟨outer, rfl, hlookup⟩ := fields_of_item hitem
  have hproper := Json.isProper_of_lookup hv hlookup
  rw [itemIdIn, Json.parse_stringify_reread, Option.bind_some,
    Json.get_reread ((Json.isProper_object_iff outer).1 hv).1, hlookup, Option.map_some,
    Option.bind_some, Json.get_reread ((Json.isProper_object_iff fields).1 hproper).1]

theorem itemIdIn_withItemId {v : Json} {fields : List (String × Json)} (hv : v.isProper = true)
    (hitem : asOutputItemFrame v = some (.object fields)) (id : Json) :
    itemIdIn (Json.stringify (withItemId id (.object fields) v)) = some id.reread := by
  obtain ⟨outer, rfl, hlookup⟩ := fields_of_item hitem
  have hproper := Json.isProper_of_lookup hv hlookup
  have hinner := Json.nodup_set "id" id ((Json.isProper_object_iff fields).1 hproper).1
  have houter := Json.nodup_set "item" (.object (Json.set fields "id" id))
    ((Json.isProper_object_iff outer).1 hv).1
  rw [itemIdIn, Json.parse_stringify_reread, Option.bind_some, withItemId, assign, assign,
    Json.get_reread houter, Json.lookup_set_self, Option.map_some, Option.bind_some,
    Json.get_reread hinner, Json.lookup_set_self, Option.map_some]

theorem fieldItemIdIn_assign {fields : List (String × Json)}
    (hv : (Json.object fields).isProper = true) (id : Json) :
    fieldItemIdIn (Json.stringify (assign "item_id" id (.object fields))) = some id.reread := by
  have hnodup := Json.nodup_set "item_id" id ((Json.isProper_object_iff fields).1 hv).1
  rw [fieldItemIdIn, Json.parse_stringify_reread, Option.bind_some, assign, Json.get_reread hnodup,
    Json.lookup_set_self, Option.map_some]

/-- The id with which the item of an announcing frame of the index leaves: its own, if it has one. -/
def NamesItem (frame : PassFrame) (k : String) (X : Json) : Prop :=
  if (frame.item.optProp "id").truthy then
    (frame.item.optProp "id").map Json.meaning = some X.meaning
  else X = .string ("oi_" ++ k ++ "_" ++ frame.randomSuffix)

theorem announcedId_spec {frame : PassFrame} {v id : Json} {fields : List (String × Json)}
    {k : String} (hparsed : frame.parsed = some v)
    (hitem : asOutputItemFrame v = some (.object fields)) (hindex : readOutputIndex v = some k)
    (hid : announcedId frame.randomSuffix v (.object fields) = .ok id) :
    id.truthy = true ∧ NamesItem frame k id.reread ∧
      itemIdIn (Json.stringify (announced v (.object fields) id)) = some id.reread := by
  have hproper := Json.isProper_parse hparsed
  have hown : frame.item.optProp "id" = fields.lookup "id" := by
    rw [item_eq hparsed, hitem]
    rfl
  have hget : (Json.object fields).get "id" = fields.lookup "id" := rfl
  rw [announcedId, hget] at hid
  rw [NamesItem, announced, hown, hget]
  by_cases htruthy : Val.truthy (fields.lookup "id") = true
  · rw [if_pos htruthy] at hid
    rw [if_pos htruthy, if_pos htruthy, itemIdIn_unnamed hproper hitem]
    cases hlookup : fields.lookup "id" with
    | none =>
      rw [hlookup] at htruthy
      cases htruthy
    | some own =>
      rw [hlookup] at hid htruthy
      have hid' : own = id := by
        cases own with
        | null => cases htruthy
        | _ => exact Except.ok.inj hid
      subst hid'
      obtain ⟨outer, rfl, hlookupItem⟩ := fields_of_item hitem
      have hownProper := Json.isProper_of_lookup (Json.isProper_of_lookup hproper hlookupItem) hlookup
      refine ⟨htruthy, ?_, rfl⟩
      rw [Option.map_some, Json.meaning_reread own hownProper]
  · rw [if_neg htruthy] at hid
    rw [if_neg htruthy, if_neg htruthy]
    obtain ⟨index, hindexText, rfl⟩ := exists_of_map_eq_ok hid
    refine ⟨?_, ?_, itemIdIn_withItemId hproper hitem _⟩
    · have hne : "oi_" ++ index ++ "_" ++ frame.randomSuffix ≠ "" := by
        intro hempty
        have hlist := congrArg String.toList hempty
        rw [String.toList_append, String.toList_append, String.toList_append] at hlist
        have hoi := (List.append_eq_nil_iff.1 (List.append_eq_nil_iff.1 hlist).1).1
        exact absurd (List.append_eq_nil_iff.1 hoi).1 (by decide)
      exact decide_eq_true hne
    · rw [readOutputIndex] at hindex
      split at hindex
      · next n hn =>
        rw [hn] at hindexText
        obtain rfl : n.text = index := Except.ok.inj hindexText
        obtain rfl : n.text = k := Option.some.inj hindex
        rfl
      · cases hindex

/-- The frame announces an item for the index. -/
def PassFrame.Announces (frame : PassFrame) (k : String) : Prop :=
  frame.isAdded = true ∧ frame.index = some k ∧ frame.item.isSome = true

/-- Until it is announced again, an index keeps its id. -/
theorem get_of_pass {frame : PassFrame} {k : String} (hnot : ¬frame.Announces k)
    {s s' : StreamIdTracker} {text : String} {os : List Empty}
    (h : frame.pass s = .ok (text, s', os)) :
    s'.outputItems.get k = s.outputItems.get k := by
  rw [frame.pass_eq] at h
  have hplays := frame.plays_role
  generalize frame.role = role at hplays h
  cases hplays with
  | @added v item hparsed hadded hitem =>
    obtain ⟨id, -, heq⟩ := exists_of_map_eq_ok h
    cases heq
    -- an announcement of the index itself is excluded
    have hindex : readOutputIndex v ≠ some k := by
      intro hk
      refine hnot ⟨hadded, (readOutputIndex_of_index hparsed).trans hk, ?_⟩
      rw [item_eq hparsed, hitem]
      rfl
    cases hread : readOutputIndex v with
    | none => rfl
    | some j =>
      refine Entries.get_set_of_ne _ _ fun hk => hindex ?_
      rw [hread, hk]
  | _ =>
    cases h
    rfl

/-- The tracker before and after a frame that is passed. -/
theorem passAll_split {frames : List PassFrame} {s : StreamIdTracker}
    {before after : List (PassFrame × String)} {frame : PassFrame} {text : String}
    (h : passAll s frames = before ++ (frame, text) :: after) :
    ∃ s₁ s₂ os rest, frame.pass s₁ = .ok (text, s₂, os) ∧ after = passAll s₂ rest ∧
      ∀ k, (∀ p ∈ before, ¬p.1.Announces k) → s₁.outputItems.get k = s.outputItems.get k := by
  induction frames generalizing s before with
  | nil => cases before <;> cases h
  | cons f frames ih =>
    rw [passAll] at h
    cases hpass : f.pass s with
    | error e =>
      rw [hpass] at h
      cases before <;> cases h
    | ok result =>
      obtain ⟨t, s', os⟩ := result
      rw [hpass] at h
      cases before with
      | nil =>
        cases h
        exact ⟨s, s', os, frames, hpass, rfl, fun _ _ => rfl⟩
      | cons p before =>
        obtain ⟨rfl, htail⟩ := List.cons.inj h
        obtain ⟨s₁, s₂, os', rest, hframe, hafter, hget⟩ := ih htail
        refine ⟨s₁, s₂, os', rest, hframe, hafter, fun k hk => ?_⟩
        rw [List.forall_mem_cons] at hk
        exact (hget k hk.2).trans (get_of_pass hk.1 hpass)

/-- A frame of an index whose id is known. -/
theorem pass_known {frame : PassFrame} {k : String} {id : Json} (hindex : frame.index = some k)
    {s s' : StreamIdTracker} (hid : s.outputItems.get k = some id) (htruthy : id.truthy = true)
    {text : String} {os : List Empty} (h : frame.pass s = .ok (text, s', os)) :
    (frame.isAdded = false → frame.isDone = true →
      (∃ fields, frame.item = some (.object fields)) → itemIdIn text = some id.reread) ∧
    (frame.isAdded = false → frame.isDone = false → fieldItemIdIn text = some id.reread) := by
  rw [frame.pass_eq] at h
  have hplays := frame.plays_role
  generalize frame.role = role at hplays h
  have hknown : ∀ {v}, frame.parsed = some v → knownId s v = some id := by
    intro v hparsed
    rw [knownId, ← readOutputIndex_of_index hparsed, hindex, Option.bind_some, hid,
      Option.filter_some, if_pos htruthy]
  cases hplays with
  | unread hparsed =>
    rw [PassFrame.index, hparsed] at hindex
    cases hindex
  | noItem hparsed hevent hitem =>
    refine ⟨fun _ _ hobject => ?_, fun hadded hdone => ?_⟩
    · obtain ⟨fields, hobject⟩ := hobject
      rw [item_eq hparsed, hitem] at hobject
      cases hobject
    · rw [hadded, hdone] at hevent
      exact absurd hevent (by decide)
  | @noRecord v hparsed _ _ hrecord =>
    rw [readOutputIndex_of_index hparsed] at hindex
    cases v with
    | array items => cases hrecord
    | object fields => cases hrecord
    | _ => cases hindex
  | added _ hadded _ =>
    rw [hadded]
    exact ⟨nofun, nofun⟩
  | @done v item hparsed hadded hdone hitem =>
    cases h
    refine ⟨fun _ _ hobject => ?_, fun _ hnot => absurd (hdone.symm.trans hnot) (by decide)⟩
    obtain ⟨fields, hobject⟩ := hobject
    rw [item_eq hparsed, hitem] at hobject
    cases hobject
    rw [hknown hparsed]
    exact itemIdIn_withItemId (Json.isProper_parse hparsed) hitem id
  | @other v hparsed hadded hdone hrecord =>
    cases h
    refine ⟨fun _ hyes => absurd (hdone.symm.trans hyes) (by decide), fun _ _ => ?_⟩
    rw [hknown hparsed]
    rw [readOutputIndex_of_index hparsed] at hindex
    cases v with
    | object fields => exact fieldItemIdIn_assign (Json.isProper_parse hparsed) id
    | _ => cases hindex

/-- The announced id of an index stays with its frames until it is announced again. -/
theorem passAll_ids {frames : List PassFrame} {s : StreamIdTracker}
    {before between after : List (PassFrame × String)} {added frame : PassFrame}
    {addedText text : String} {k : String}
    (hrun : passAll s frames =
      before ++ (added, addedText) :: (between ++ (frame, text) :: after))
    (hadded : added.isAdded = true) (hindex : added.index = some k)
    (hitem : ∃ fields, added.item = some (.object fields))
    (hbetween : ∀ p ∈ between, ¬p.1.Announces k) (hframe : frame.index = some k) :
    ∃ X, NamesItem added k X ∧ itemIdIn addedText = some X ∧
      (frame.isAdded = false → frame.isDone = true →
        (∃ fields, frame.item = some (.object fields)) → itemIdIn text = some X) ∧
      (frame.isAdded = false → frame.isDone = false → fieldItemIdIn text = some X) := by
  -- the tracker around the announcement, and the one in front of the later frame
  obtain ⟨s₁, s₂, os, rest, hpass, hrest, -⟩ := passAll_split hrun
  obtain ⟨s₃, s₄, os', rest', hpass', -, hget⟩ := passAll_split hrest.symm
  rw [added.pass_eq] at hpass
  have hplays := added.plays_role
  generalize added.role = role at hplays hpass
  obtain ⟨fields, hfields⟩ := hitem
  cases hplays with
  | @added v item hparsed _ hitem =>
    rw [item_eq hparsed, hitem] at hfields
    cases hfields
    have hread := (readOutputIndex_of_index hparsed).symm.trans hindex
    obtain ⟨id, hid, heq⟩ := exists_of_map_eq_ok hpass
    cases heq
    obtain ⟨htruthy, hnames, htext⟩ := announcedId_spec hparsed hitem hread hid
    have hknown : s₃.outputItems.get k = some id := by
      rw [hget k hbetween, hread]
      exact Entries.get_set_self s₁.outputItems k id
    exact ⟨id.reread, hnames, htext, pass_known hframe hknown htruthy hpass'⟩
  | unread hparsed =>
    rw [PassFrame.item, hparsed] at hfields
    cases hfields
  | noItem hparsed _ hnone =>
    rw [item_eq hparsed, hnone] at hfields
    cases hfields
  | noRecord _ hnot => exact absurd (hadded.symm.trans hnot) (by decide)
  | done _ hnot => exact absurd (hadded.symm.trans hnot) (by decide)
  | other _ hnot => exact absurd (hadded.symm.trans hnot) (by decide)

theorem passAll_kept {frames : List PassFrame} {s : StreamIdTracker} {p : PassFrame × String}
    (hp : p ∈ passAll s frames) :
    (p.1.HoldsNothing → p.2 = p.1.data) ∧ p.1.KeptIn p.2 := by
  obtain ⟨before, after, hrun⟩ := List.mem_iff_append.1 hp
  obtain ⟨s₁, s₂, os, rest, hpass, -, -⟩ := passAll_split hrun
  exact pass_keeps hpass

/-- Every frame is written with its values but for the id in its place, and one that holds nothing
byte for byte; the frames of one index do not show in the others; and from the frame that announces
an item until the next one of its index, item and frames carry one id. -/
theorem ids_synchronised (frames : List PassFrame) :
    (∀ p ∈ passAll createStreamIdTracker frames,
      (p.1.HoldsNothing → p.2 = p.1.data) ∧ p.1.KeptIn p.2) ∧
    (∀ k, (passAll createStreamIdTracker frames).filter (fun p => p.1.index ≠ some k) =
      passAll createStreamIdTracker (frames.filter fun frame => frame.index ≠ some k)) ∧
    ∀ before added addedText between frame text after k,
      passAll createStreamIdTracker frames =
        before ++ (added, addedText) :: (between ++ (frame, text) :: after) →
      added.isAdded = true → added.index = some k →
      (∃ fields, added.item = some (.object fields)) →
      (∀ p ∈ between, ¬p.1.Announces k) → frame.index = some k →
      ∃ X, NamesItem added k X ∧ itemIdIn addedText = some X ∧
        (frame.isAdded = false → frame.isDone = true →
          (∃ fields, frame.item = some (.object fields)) → itemIdIn text = some X) ∧
        (frame.isAdded = false → frame.isDone = false → fieldItemIdIn text = some X) :=
  ⟨fun _ hp => passAll_kept hp, fun k => passAll_filter k frames fun _ _ => rfl,
    fun _ _ _ _ _ _ _ _ hrun hadded hindex hitem hbetween hframe =>
      passAll_ids hrun hadded hindex hitem hbetween hframe⟩

/-- An item announced as `a`. -/
def announcedA : PassFrame where
  event := some "response.output_item.added"
  data := "\x7b\"output_index\":0,\"item\":\x7b\"id\":\"a\"\x7d\x7d"
  randomSuffix := ""

/-- Its index is done with an item named `b`. -/
def doneAsB : PassFrame where
  event := some "response.output_item.done"
  data := "\x7b\"output_index\":0,\"item\":\x7b\"id\":\"b\"\x7d\x7d"
  randomSuffix := ""

/-- Its index is done with a list for an item. -/
def doneWithList : PassFrame where
  event := some "response.output_item.done"
  data := "\x7b\"output_index\":0,\"item\":[ ]\x7d"
  randomSuffix := ""

/-- The item that is done leaves with the id it was announced with. -/
theorem ids_synchronised_renamed :
    passAll createStreamIdTracker [announcedA, doneAsB] =
        [(announcedA, announcedA.data), (doneAsB, announcedA.data)] ∧
      itemIdIn announcedA.data = some (.string "a") := by
  have hrun : passAll createStreamIdTracker [announcedA, doneAsB] =
      [(announcedA, announcedA.data), (doneAsB, announcedA.data)] := by decide +kernel
  have hadded : announcedA.isAdded = true ∧ announcedA.index = some "0" ∧
      announcedA.item = some (.object [("id", .string "a")]) := by decide +kernel
  have hdone : doneAsB.isAdded = false ∧ doneAsB.isDone = true ∧ doneAsB.index = some "0" ∧
      doneAsB.item = some (.object [("id", .string "b")]) := by decide +kernel
  have hown : itemIdIn announcedA.data = some (.string "a") := by decide +kernel
  obtain ⟨-, -, hids⟩ := ids_synchronised [announcedA, doneAsB]
  obtain ⟨X, -, hX, hleaves, -⟩ := hids [] announcedA announcedA.data [] doneAsB announcedA.data []
    "0" (by rw [hrun]; rfl) hadded.1 hadded.2.1 ⟨_, hadded.2.2⟩
    (fun _ hp => absurd hp List.not_mem_nil) hdone.2.2.1
  have hname : X = .string "a" := Option.some.inj (hX.symm.trans hown)
  exact ⟨hrun, (hleaves hdone.1 hdone.2.1 ⟨_, hdone.2.2.2⟩).trans (congrArg some hname)⟩

/-- A list counts as an item, but it cannot carry an id, and it is not written as it came. -/
theorem done_list_unnamed :
    passAll createStreamIdTracker [announcedA, doneWithList] =
        [(announcedA, announcedA.data), (doneWithList, "\x7b\"output_index\":0,\"item\":[]\x7d")] ∧
      itemIdIn announcedA.data = some (.string "a") ∧ doneWithList.index = some "0" ∧
      doneWithList.item = some (.array []) ∧
      itemIdIn "\x7b\"output_index\":0,\"item\":[]\x7d" = none ∧
      "\x7b\"output_index\":0,\"item\":[]\x7d" ≠ doneWithList.data := by
  decide +kernel

end Maximal.Responses
