import Maximal.Lib.Emitter
import Maximal.Lib.Js.Map
import Maximal.Lib.Js.Value

/-!
# Item ids of the Responses passthrough

The upstream names one item differently in different frames. `fixStreamIds` remembers the id an
item was announced with and writes it into the later frames of the same output index.

## Main definitions

- `fixStreamIds` — one frame of the passthrough
- `idTolerated` — the frames on which it returns

## Main results

- `fixStreamIds_failsIff` — exactly when it throws, whatever the tracker holds
-/

namespace Maximal.Responses

open Js Emitter

/-- Ids by output index. -/
structure StreamIdTracker where
  outputItems : Entries String Json

def createStreamIdTracker : StreamIdTracker := ⟨[]⟩

abbrev StreamIdSync := Emitter TypeError StreamIdTracker Empty

/-- The `item` of a frame, if it is an object. -/
def asOutputItemFrame (value : Json) : Option Json :=
  if value.isRecord then Val.asRecord (value.get "item") else none

/-- The output index of a frame, if it is a number. -/
def readOutputIndex (frame : Json) : Option String :=
  match frame.get "output_index" with
  | some (.number n) => some n.text
  | _ => none

/-- `value[k] = v`; what is no plain object does not show it in its text. -/
def assign (k : String) (v : Json) : Json → Json
  | .object fields => .object (Json.set fields k v)
  | value => value

def remember (outputIndex : Option String) (id : Json) : StreamIdSync Unit :=
  match outputIndex with
  | none => pure ()
  | some index => update fun tracker => ⟨tracker.outputItems.set index id⟩

def handleAddedItem (stringify : Json → String) (randomSuffix : String) (parsed item : Json) :
    StreamIdSync String := do
  if (item.get "id").truthy then
    remember (readOutputIndex parsed) ((item.get "id").orElse .null)
    return stringify parsed
  else
    let index ← ofExcept (parsed.get "output_index").text
    let id := Json.string ("oi_" ++ index ++ "_" ++ randomSuffix)
    remember (readOutputIndex parsed) id
    return stringify (assign "item" (assign "id" id item) parsed)

/-- The id known for the output index of a frame. -/
def knownId (tracker : StreamIdTracker) (frame : Json) : Option Json :=
  ((readOutputIndex frame).bind tracker.outputItems.get).filter Json.truthy

def handleDoneItem (stringify : Json → String) (parsed item : Json) : StreamIdSync String := do
  let tracker ← current
  match knownId tracker parsed with
  | none => return stringify parsed
  | some originalId => return stringify (assign "item" (assign "id" originalId item) parsed)

def handleItemId (stringify : Json → String) (parsed : Json) : StreamIdSync String := do
  let tracker ← current
  match knownId tracker parsed with
  | none => return stringify parsed
  | some itemId => return stringify (assign "item_id" itemId parsed)

/-- One frame of the passthrough; the suffix stands for the random part of an id made up here. -/
def fixStreamIds (parse : String → Option Json) (stringify : Json → String)
    (randomSuffix data : String) (event : Option String) : StreamIdSync String :=
  if data = "" then return data
  else
    match parse data with
    | none => return data
    | some parsed =>
      if event = some "response.output_item.added" then
        match asOutputItemFrame parsed with
        | none => return data
        | some item => handleAddedItem stringify randomSuffix parsed item
      else if event = some "response.output_item.done" then
        match asOutputItemFrame parsed with
        | none => return data
        | some item => handleDoneItem stringify parsed item
      else if parsed.isRecord then handleItemId stringify parsed
      else return data

/-- An item that is announced without an id is named after its output index. -/
def idTolerated (event : Option String) (parsed : Json) : Bool :=
  event ≠ some "response.output_item.added" ||
    (asOutputItemFrame parsed).all fun item =>
      (item.get "id").truthy || (parsed.get "output_index").printable

section

variable (parse : String → Option Json) (stringify : Json → String) (randomSuffix data : String)
  (event : Option String)

theorem remember_failsIff (outputIndex : Option String) (id : Json) :
    FailsIff (remember outputIndex id) False := by
  cases outputIndex with
  | none => exact .pure ()
  | some index => exact .update _

theorem handleAddedItem_failsIff (parsed item : Json) :
    FailsIff (handleAddedItem stringify randomSuffix parsed item)
      (((item.get "id").truthy || (parsed.get "output_index").printable) = false) := by
  unfold handleAddedItem
  cases htruthy : (item.get "id").truthy with
  | true =>
    refine FailsIff.of_not ?_ Bool.noConfusion
    exact .after (remember_failsIff _ _) fun _ => .pure _
  | false =>
    refine (FailsIff.before (.ofExcept _) fun index => .after (remember_failsIff _ _) fun _ =>
      .pure _).congr ?_
    rw [Val.isOk_text, Bool.false_or]

theorem handleDoneItem_failsIff (parsed item : Json) :
    FailsIff (handleDoneItem stringify parsed item) False := by
  refine .after .current fun tracker => ?_
  cases knownId tracker parsed <;> exact .pure _

theorem handleItemId_failsIff (parsed : Json) : FailsIff (handleItemId stringify parsed) False := by
  refine .after .current fun tracker => ?_
  cases knownId tracker parsed <;> exact .pure _

/-- A frame makes `fixStreamIds` throw when it is parsed and not tolerated. -/
theorem fixStreamIds_failsIff :
    FailsIff (fixStreamIds parse stringify randomSuffix data event)
      (data ≠ "" ∧ (parse data).all (idTolerated event) = false) := by
  unfold fixStreamIds
  by_cases hdata : data = ""
  · rw [if_pos hdata]
    exact (FailsIff.pure _).of_not fun h => h.1 hdata
  · rw [if_neg hdata]
    refine FailsIff.congr ?_ (and_iff_right hdata).symm
    cases parse data with
    | none => exact (FailsIff.pure _).of_not Bool.noConfusion
    | some parsed =>
      rw [Option.all_some, idTolerated]
      dsimp only
      by_cases hadded : event = some "response.output_item.added"
      · rw [if_pos hadded, hadded]
        cases asOutputItemFrame parsed with
        | none => exact (FailsIff.pure _).of_not Bool.noConfusion
        | some item => exact handleAddedItem_failsIff stringify randomSuffix parsed item
      · rw [if_neg hadded]
        refine FailsIff.of_not ?_ (by simp [hadded])
        split
        · cases asOutputItemFrame parsed with
          | none => exact .pure _
          | some item => exact handleDoneItem_failsIff stringify parsed item
        · split
          · exact handleItemId_failsIff stringify parsed
          · exact .pure _

end

end Maximal.Responses
