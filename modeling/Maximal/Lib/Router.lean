import Mathlib.Data.List.Basic

/-!
# Routers

A router is a list of layers. A request goes through them in order: a middleware answers it or lets
it pass, a route answers it. Layers are for the paths that fit their pattern.

## Main definitions

- `Router.segmentsOf` — the parts of a path between its slashes
- `Router.Pattern.fits` — the paths that fit a pattern
- `Router.serve` — the answer to a request, and what happened on the way

## Main results

- `Router.prefix_segmentsOf_iff` — a path under another one, by its parts
- `Router.Pattern.fits_of_covers`, `Router.Pattern.not_fits_of_apart` — patterns are compared
  without a path
- `Router.serve_gates`, `Router.serve_rows`
- `Router.serve_append_of_answer`, `Router.serve_append_of_none`, `Router.answer_append`
-/

namespace Router

/-! ## Paths -/

def segmentsOf : List Char → List (List Char)
  | [] => [[]]
  | c :: cs =>
    if c = '/' then [] :: segmentsOf cs
    else
      match segmentsOf cs with
      -- there is one part at least
      | [] => [[c]]
      | segment :: segments => (c :: segment) :: segments

/-- The path of the parts. -/
def pathOf (segments : List (List Char)) : List Char := ['/'].intercalate segments

theorem segmentsOf_ne_nil (path : List Char) : segmentsOf path ≠ [] := by
  cases path with
  | nil => exact List.cons_ne_nil _ _
  | cons c cs =>
    rw [segmentsOf]
    split
    · exact List.cons_ne_nil _ _
    · split <;> exact List.cons_ne_nil _ _

theorem segmentsOf_append (path rest : List Char) :
    segmentsOf (path ++ '/' :: rest) = segmentsOf path ++ segmentsOf rest := by
  induction path with
  | nil => rfl
  | cons c cs ih =>
    rw [List.cons_append, segmentsOf, segmentsOf, ih]
    split
    · rfl
    · obtain ⟨segment, segments, hsegments⟩ := List.exists_cons_of_ne_nil (segmentsOf_ne_nil cs)
      rw [hsegments]
      rfl

theorem pathOf_segmentsOf (path : List Char) : pathOf (segmentsOf path) = path := by
  induction path with
  | nil => rfl
  | cons c cs ih =>
    obtain ⟨segment, segments, hsegments⟩ := List.exists_cons_of_ne_nil (segmentsOf_ne_nil cs)
    rw [segmentsOf]
    rw [hsegments] at ih ⊢
    split
    · next hc =>
      rw [← ih, hc]
      rfl
    · rw [← ih]
      cases segments <;> rfl

theorem pathOf_append {segments more : List (List Char)} (hsegments : segments ≠ [])
    (hmore : more ≠ []) :
    pathOf (segments ++ more) = pathOf segments ++ '/' :: pathOf more := by
  induction segments with
  | nil => exact absurd rfl hsegments
  | cons segment segments ih =>
    cases segments with
    | nil =>
      obtain ⟨next, more, rfl⟩ := List.exists_cons_of_ne_nil hmore
      simp [pathOf]
    | cons segment' segments =>
      have hrest := ih (List.cons_ne_nil _ _)
      show segment ++ '/' :: pathOf (segment' :: segments ++ more) = _
      rw [hrest]
      simp [pathOf]

/-- A path is under another one, or is that path. -/
theorem prefix_segmentsOf_iff {base path : List Char} :
    segmentsOf base <+: segmentsOf path ↔ path = base ∨ (base ++ ['/']) <+: path := by
  constructor
  · rintro ⟨more, hmore⟩
    have hpath := congrArg pathOf hmore
    rw [pathOf_segmentsOf] at hpath
    by_cases hnil : more = []
    · rw [hnil, List.append_nil, pathOf_segmentsOf] at hpath
      exact .inl hpath.symm
    · rw [pathOf_append (segmentsOf_ne_nil base) hnil, pathOf_segmentsOf] at hpath
      exact .inr ⟨pathOf more, by rw [← hpath, List.append_assoc]; rfl⟩
  · rintro (rfl | ⟨rest, rfl⟩)
    · exact List.prefix_rfl
    · rw [List.append_assoc, List.singleton_append, segmentsOf_append]
      exact List.prefix_append _ _

/-! ## Patterns -/

inductive Segment where
  | literal (text : List Char)
  /-- `:name`, any text that is not empty. -/
  | param
  deriving DecidableEq

def Segment.fits : Segment → List Char → Bool
  | .literal text, segment => segment = text
  | .param, segment => segment ≠ []

structure Pattern where
  segments : List Segment
  /-- The pattern ends with `/*`: whatever comes then. -/
  isOpen : Bool
  deriving DecidableEq

def fitsSegments (isOpen : Bool) : List Segment → List (List Char) → Bool
  | [], rest => isOpen || rest.isEmpty
  | _ :: _, [] => false
  | segment :: segments, text :: texts => segment.fits text && fitsSegments isOpen segments texts

def Pattern.fits (pattern : Pattern) (path : List (List Char)) : Bool :=
  fitsSegments pattern.isOpen pattern.segments path

def segmentOf : List Char → Segment
  | ':' :: _ => .param
  | text => .literal text

/-- The pattern of a text such as `/:provider/v1/*`. -/
def patternOf (text : String) : Pattern :=
  let segments := segmentsOf text.toList
  if segments.getLast? = some ['*'] then ⟨segments.dropLast.map segmentOf, true⟩
  else ⟨segments.map segmentOf, false⟩

def coversSegments (isOpen isOpen' : Bool) : List Segment → List Segment → Bool
  | [], rest => isOpen || rest.isEmpty && !isOpen'
  | _ :: _, [] => false
  | .param :: ps, segment :: qs =>
    segment ≠ .literal [] && coversSegments isOpen isOpen' ps qs
  | .literal text :: ps, segment :: qs =>
    segment = .literal text && coversSegments isOpen isOpen' ps qs

def apartSegments (isOpen isOpen' : Bool) : List Segment → List Segment → Bool
  | [], [] => false
  | [], _ :: _ => !isOpen
  | _ :: _, [] => !isOpen'
  | .literal text :: ps, .literal text' :: qs =>
    text ≠ text' || apartSegments isOpen isOpen' ps qs
  | _ :: ps, _ :: qs => apartSegments isOpen isOpen' ps qs

/-- Every path that fits the second pattern fits the first one. -/
def Pattern.covers (p q : Pattern) : Bool :=
  coversSegments p.isOpen q.isOpen p.segments q.segments

/-- No path fits both patterns. -/
def Pattern.apart (p q : Pattern) : Bool :=
  apartSegments p.isOpen q.isOpen p.segments q.segments

theorem fitsSegments_cons {isOpen : Bool} {segment : Segment} {segments : List Segment}
    {path : List (List Char)} (h : fitsSegments isOpen (segment :: segments) path = true) :
    ∃ text texts, path = text :: texts ∧ segment.fits text = true ∧
      fitsSegments isOpen segments texts = true := by
  cases path with
  | nil => cases h
  | cons text texts =>
    obtain ⟨hfirst, hrest⟩ := Bool.and_eq_true_iff.1 h
    exact ⟨text, texts, rfl, hfirst, hrest⟩

theorem fitsSegments_nil {isOpen : Bool} {path : List (List Char)}
    (h : fitsSegments isOpen [] path = true) : isOpen = true ∨ path = [] := by
  rw [fitsSegments, Bool.or_eq_true, List.isEmpty_iff] at h
  exact h

theorem Segment.param_fits {segment : Segment} {text : List Char} (h : segment ≠ .literal [])
    (hfits : segment.fits text = true) : Segment.param.fits text = true := by
  cases segment with
  | param => exact hfits
  | literal text' =>
    obtain rfl : text = text' := of_decide_eq_true hfits
    exact decide_eq_true fun hnil => h (by rw [hnil])

theorem fitsSegments_of_covers {isOpen isOpen' : Bool} {ps qs : List Segment}
    {path : List (List Char)} (h : coversSegments isOpen isOpen' ps qs = true)
    (hfits : fitsSegments isOpen' qs path = true) : fitsSegments isOpen ps path = true := by
  induction ps generalizing qs path with
  | nil =>
    rw [coversSegments, Bool.or_eq_true, Bool.and_eq_true, List.isEmpty_iff] at h
    rw [fitsSegments, Bool.or_eq_true, List.isEmpty_iff]
    obtain hopen | ⟨rfl, hclosed⟩ := h
    · exact .inl hopen
    · obtain hopen | hnil := fitsSegments_nil hfits
      · rw [hopen] at hclosed
        cases hclosed
      · exact .inr hnil
  | cons segment ps ih =>
    cases qs with
    | nil => cases segment <;> cases h
    | cons segment' qs =>
      obtain ⟨text, texts, rfl, hfirst, hrest⟩ := fitsSegments_cons hfits
      cases segment with
      | param =>
        obtain ⟨hsegment, hcovers⟩ := Bool.and_eq_true_iff.1 h
        exact Bool.and_eq_true_iff.2
          ⟨Segment.param_fits (of_decide_eq_true hsegment) hfirst, ih hcovers hrest⟩
      | literal text' =>
        obtain ⟨hsegment, hcovers⟩ := Bool.and_eq_true_iff.1 h
        obtain rfl := of_decide_eq_true hsegment
        exact Bool.and_eq_true_iff.2 ⟨hfirst, ih hcovers hrest⟩

theorem not_fitsSegments_of_apart {isOpen isOpen' : Bool} {ps qs : List Segment}
    {path : List (List Char)} (h : apartSegments isOpen isOpen' ps qs = true)
    (hfits : fitsSegments isOpen ps path = true) : fitsSegments isOpen' qs path = false := by
  by_contra hother
  rw [Bool.not_eq_false] at hother
  induction ps generalizing qs path with
  | nil =>
    cases qs with
    | nil => cases h
    | cons segment' qs =>
      obtain ⟨text, texts, rfl, -, -⟩ := fitsSegments_cons hother
      obtain hopen | hnil := fitsSegments_nil hfits
      · rw [apartSegments, hopen] at h
        cases h
      · cases hnil
  | cons segment ps ih =>
    obtain ⟨text, texts, rfl, hfirst, hrest⟩ := fitsSegments_cons hfits
    cases qs with
    | nil =>
      obtain hopen | hnil := fitsSegments_nil hother
      · cases segment <;> rw [apartSegments, hopen] at h <;> cases h
      · cases hnil
    | cons segment' qs =>
      obtain ⟨_, _, heq, hfirst', hrest'⟩ := fitsSegments_cons hother
      obtain ⟨rfl, rfl⟩ := List.cons.inj heq
      cases segment with
      | param => exact ih (by cases segment' <;> exact h) hrest hrest'
      | literal text₁ =>
        cases segment' with
        | param => exact ih h hrest hrest'
        | literal text₂ =>
          obtain hne | hapart := Bool.or_eq_true_iff.1 h
          · obtain rfl : text = text₁ := of_decide_eq_true hfirst
            obtain rfl : text = text₂ := of_decide_eq_true hfirst'
            exact of_decide_eq_true hne rfl
          · exact ih hapart hrest hrest'

theorem Pattern.fits_of_covers {p q : Pattern} {path : List (List Char)} (h : p.covers q = true)
    (hfits : q.fits path = true) : p.fits path = true :=
  fitsSegments_of_covers h hfits

theorem Pattern.not_fits_of_apart {p q : Pattern} {path : List (List Char)}
    (h : p.apart q = true) (hfits : p.fits path = true) : q.fits path = false :=
  not_fitsSegments_of_apart h hfits

/-- The path that a base path is, or is under. -/
def under (base : String) : Pattern := ⟨(segmentsOf base.toList).map .literal, true⟩

theorem under_fits_iff {base : String} {path : List Char} :
    (under base).fits (segmentsOf path) = true ↔
      path = base.toList ∨ (base.toList ++ ['/']) <+: path := by
  have hprefix : ∀ texts path : List (List Char),
      fitsSegments true (texts.map .literal) path = true ↔ texts <+: path := by
    intro texts
    induction texts with
    | nil => exact fun path => ⟨fun _ => List.nil_prefix, fun _ => rfl⟩
    | cons text texts ih =>
      intro path
      cases path with
      | nil => exact ⟨nofun, fun h => absurd (List.prefix_nil.1 h) (List.cons_ne_nil _ _)⟩
      | cons text' path =>
        rw [List.map_cons, fitsSegments, Bool.and_eq_true, ih path, List.cons_prefix_cons,
          Segment.fits, decide_eq_true_iff, eq_comm]
  rw [under, Pattern.fits, hprefix, prefix_segmentsOf_iff]

/-! ## Layers -/

/-- What a middleware does. -/
inductive Verdict (ε α : Type) where
  | answer (answer : α)
  /-- The request passes; these things happened. -/
  | next (effects : List ε)

inductive Layer (ρ ε α : Type) where
  | use (pattern : Pattern) (middleware : ρ → Verdict ε α)
  | on (method : String) (pattern : Pattern) (handler : ρ → α)

/-- How requests are looked at. -/
structure Shape (ρ : Type) where
  method : ρ → String
  path : ρ → List (List Char)

section Serving

variable {ρ ε α : Type} (shape : Shape ρ) (request : ρ)

def Layer.run : Layer ρ ε α → Verdict ε α
  | .use pattern middleware =>
    if pattern.fits (shape.path request) then middleware request else .next []
  | .on method pattern handler =>
    if shape.method request = method && pattern.fits (shape.path request) then
      .answer (handler request)
    else .next []

/-- What happened, and the answer if there is one. -/
def serve : List (Layer ρ ε α) → List ε × Option α
  | [] => ([], none)
  | layer :: layers =>
    match layer.run shape request with
    | .answer answer => ([], some answer)
    | .next effects => (effects ++ (serve layers).1, (serve layers).2)

variable {shape request}

theorem serve_cons_of_answer {layer : Layer ρ ε α} {answer : α}
    (h : layer.run shape request = .answer answer) (layers : List (Layer ρ ε α)) :
    serve shape request (layer :: layers) = ([], some answer) := by
  rw [serve, h]

theorem serve_cons_of_next {layer : Layer ρ ε α} {effects : List ε}
    (h : layer.run shape request = .next effects) (layers : List (Layer ρ ε α)) :
    serve shape request (layer :: layers) =
      (effects ++ (serve shape request layers).1, (serve shape request layers).2) := by
  rw [serve, h]

theorem serve_cons_of_pass {layer : Layer ρ ε α} (h : layer.run shape request = .next [])
    (layers : List (Layer ρ ε α)) :
    serve shape request (layer :: layers) = serve shape request layers :=
  serve_cons_of_next h layers

theorem serve_append_of_answer {layers : List (Layer ρ ε α)} {answer : α}
    (h : (serve shape request layers).2 = some answer) (more : List (Layer ρ ε α)) :
    serve shape request (layers ++ more) = serve shape request layers := by
  induction layers with
  | nil => cases h
  | cons layer layers ih =>
    cases hrun : layer.run shape request with
    | answer answer' =>
      rw [List.cons_append, serve_cons_of_answer hrun, serve_cons_of_answer hrun]
    | next effects =>
      rw [serve_cons_of_next hrun] at h
      rw [List.cons_append, serve_cons_of_next hrun, serve_cons_of_next hrun, ih h]

theorem serve_append_of_none {layers : List (Layer ρ ε α)}
    (h : (serve shape request layers).2 = none) (more : List (Layer ρ ε α)) :
    serve shape request (layers ++ more) =
      ((serve shape request layers).1 ++ (serve shape request more).1,
        (serve shape request more).2) := by
  induction layers with
  | nil => rfl
  | cons layer layers ih =>
    cases hrun : layer.run shape request with
    | answer answer =>
      rw [serve_cons_of_answer hrun] at h
      cases h
    | next effects =>
      rw [serve_cons_of_next hrun] at h
      rw [List.cons_append, serve_cons_of_next hrun, serve_cons_of_next hrun, ih h,
        List.append_assoc]

/-- The answer is that of the first part that has one. -/
theorem answer_append (layers more : List (Layer ρ ε α)) :
    (serve shape request (layers ++ more)).2 =
      (serve shape request layers).2.or (serve shape request more).2 := by
  cases h : (serve shape request layers).2 with
  | none => rw [serve_append_of_none h, Option.none_or]
  | some answer => rw [serve_append_of_answer h, h, Option.some_or]

/-! ## Tables -/

/-- A middleware that only lets through or answers. -/
def gate (pattern : Pattern) (check : ρ → Option α) : Layer ρ ε α :=
  .use pattern fun request =>
    match check request with
    | some answer => .answer answer
    | none => .next []

theorem serve_gate_cons (pattern : Pattern) (check : ρ → Option α)
    (layers : List (Layer ρ ε α)) :
    serve shape request (gate pattern check :: layers) =
      match if pattern.fits (shape.path request) then check request else none with
      | some answer => ([], some answer)
      | none => serve shape request layers := by
  by_cases hfits : pattern.fits (shape.path request) = true
  · cases hcheck : check request with
    | some answer =>
      rw [if_pos hfits]
      exact serve_cons_of_answer (by rw [gate, Layer.run, if_pos hfits, hcheck]) layers
    | none =>
      rw [if_pos hfits]
      exact serve_cons_of_pass (by rw [gate, Layer.run, if_pos hfits, hcheck]) layers
  · rw [if_neg hfits]
    exact serve_cons_of_pass (by rw [gate, Layer.run, if_neg hfits]) layers

theorem answer_gate_cons (pattern : Pattern) (check : ρ → Option α)
    (layers : List (Layer ρ ε α)) :
    (serve shape request (gate pattern check :: layers)).2 =
      (if pattern.fits (shape.path request) then check request else none).or
        (serve shape request layers).2 := by
  rw [serve_gate_cons]
  cases if pattern.fits (shape.path request) then check request else none <;> rfl

/-- Two gates that stand in front of the same paths: the first one decides first. -/
theorem serve_gates (patterns : List Pattern) (first second : ρ → Option α) :
    serve shape request
        (patterns.flatMap fun pattern =>
          [(gate pattern first : Layer ρ ε α), gate pattern second]) =
      ([], if patterns.any (·.fits (shape.path request)) then
        (first request).or (second request) else none) := by
  induction patterns with
  | nil => rfl
  | cons pattern patterns ih =>
    rw [List.flatMap_cons, List.cons_append, List.cons_append, List.nil_append, serve_gate_cons,
      serve_gate_cons, ih, List.any_cons]
    cases pattern.fits (shape.path request) with
    | false => rfl
    | true =>
      cases first request with
      | some answer => rfl
      | none =>
        cases second request with
        | some answer => rfl
        | none => simp

structure Row (α : Type) where
  method : String
  pattern : Pattern
  answer : α

def Row.layer (row : Row α) : Layer ρ ε α := .on row.method row.pattern fun _ => row.answer

def Row.fits (row : Row α) (shape : Shape ρ) (request : ρ) : Bool :=
  shape.method request = row.method && row.pattern.fits (shape.path request)

/-- A table answers with its first row that fits. -/
theorem serve_rows (rows : List (Row α)) :
    serve shape request (rows.map (Row.layer : Row α → Layer ρ ε α)) =
      ([], (rows.find? (·.fits shape request)).map Row.answer) := by
  induction rows with
  | nil => rfl
  | cons row rows ih =>
    rw [List.map_cons, List.find?_cons]
    cases hfits : row.fits shape request with
    | true =>
      have hanswer : (row.layer : Layer ρ ε α).run shape request = .answer row.answer :=
        if_pos hfits
      exact serve_cons_of_answer hanswer _
    | false =>
      have hnext : (row.layer : Layer ρ ε α).run shape request = .next [] :=
        if_neg (by rw [← Row.fits, hfits]; exact Bool.false_ne_true)
      rw [serve_cons_of_next hnext, ih]
      rfl

end Serving

end Router
