import Maximal.RuntimeState.Recall
import Maximal.WebTools.Execution

/-!
# Web tools: the hosted executor

A search of the hosted service brings the pages along with the hits. The executor of a request
keeps them, so that a later fetch of one of them costs no further request.

## Main definitions

- `post` — what a request comes to, whatever becomes of it
- `OllamaWebExecutor.search`, `OllamaWebExecutor.fetch` — the executor, with its cache
- `Reference.search`, `Reference.fetch` — the same service for a reader that forgets no page, and
  passes over a page when fifty others were found or read again since

## Main results

- `Follows.search`, `Follows.fetch` — one call
- `ollama_follows_reference` — all calls
-/

namespace Maximal.WebTools

open Js
open Maximal.RuntimeState (Cache)

/-! ## Requests -/

inductive Post where
  | webSearch (query : String) (maxResults : ℕ)
  | webFetch (url : String)
  deriving DecidableEq

inductive PostReason where
  | auth | rateLimit | client | server | network | timeout
  deriving DecidableEq

inductive Posted where
  | ok (data : Json)
  | err (status : ℕ) (reason : PostReason)

/-- No response, as the timer ran out or for another reason; or one, with a body that need not
parse. -/
inductive Reply where
  | failed (aborted : Bool)
  | response (status : ℕ) (body : Option Json)

def failedReason (status : ℕ) : PostReason :=
  if status = 401 ∨ status = 403 then .auth
  else if status = 429 then .rateLimit
  else if 500 ≤ status then .server
  else .client

def post : Reply → Posted
  | .failed aborted => .err 0 (if aborted then .timeout else .network)
  | .response status body =>
    if 200 ≤ status ∧ status < 300 then
      match body with
      | none => .err status .server
      | some data => .ok data
    else .err status (failedReason status)

def searchErrorFromPost : PostReason → WebSearchErrorCode
  | .rateLimit => .tooManyRequests
  | .auth | .server | .network | .timeout => .unavailable
  | .client => .invalidInput

def fetchErrorFromPost : PostReason → WebFetchErrorCode
  | .rateLimit => .tooManyRequests
  | .auth | .server | .timeout => .unavailable
  | .network | .client => .urlNotAccessible

/-! ## Pages -/

structure Page where
  markdown : String
  title : Option String
  deriving DecidableEq

/-- The first `units` code units. The half of a character that is cut reads as a replacement
character. -/
def takeUnits : ℕ → List Char → List Char
  | 0, _ => []
  | _, [] => []
  | units + 1, c :: cs =>
    if c.toNat < 0x10000 then c :: takeUnits units cs
    else
      match units with
      | 0 => [Char.ofNat 0xFFFD]
      | units + 1 => c :: takeUnits units cs

def trimTo (s : String) (maxChars : ℕ) : String :=
  if maxChars < Json.utf16Length s then String.ofList (takeUnits maxChars s.toList) else s

def DEFAULT_MAX_CHARS : ℕ := 400000

def Page.result (page : Page) (maxChars : Option ℕ) : FetchResult :=
  .ok (trimTo page.markdown (maxChars.getD DEFAULT_MAX_CHARS)) page.title

/-- A result of the service that names an address and a title. -/
structure RawHit where
  url : String
  title : String
  content : Option String

def rawHit (raw : Json) : Option RawHit :=
  if raw.isRecord then
    match Val.asString (raw.get "url"), Val.asString (raw.get "title") with
    | some url, some title =>
      some ⟨url, title, (Val.asString (raw.get "content")).filter fun content => content ≠ ""⟩
    | _, _ => none
  else none

def RawHit.item (hit : RawHit) : SearchHit := ⟨hit.url, hit.title, some none⟩

def RawHit.page (hit : RawHit) : Option (String × Page) :=
  hit.content.map fun markdown => (hit.url, ⟨markdown, some hit.title⟩)

/-- What a fetch of the service answers. -/
def fetchedData (data : Json) (maxChars : Option ℕ) : Except TypeError FetchResult := do
  let content ← Val.prop (some data) "content"
  match Val.asString content with
  | none => .ok (.failed .urlNotAccessible)
  | some content => .ok (Page.result ⟨content, Val.asString (data.get "title")⟩ maxChars)

def fetched (reply : Reply) (maxChars : Option ℕ) : Except TypeError FetchResult :=
  match post reply with
  | .err _ reason => .ok (.failed (fetchErrorFromPost reason))
  | .ok data => fetchedData data maxChars

/-! ## The executor -/

/-- The cache of pages, and the requests that were sent. -/
structure OllamaWebExecutor where
  prefetch : Cache String Page
  posts : List Post

/-- The service answers depending on the requests before. -/
abbrev Backend := List Post → Post → Reply

namespace OllamaWebExecutor

def PREFETCH_MAX : ℕ := 50

def new : OllamaWebExecutor := ⟨.new "web-tools.prefetch" PREFETCH_MAX, []⟩

/-- One round of the loop over the results. -/
def takeRaw (acc : List SearchHit × Cache String Page) (raw : Json) :
    List SearchHit × Cache String Page :=
  match rawHit raw with
  | none => acc
  | some hit =>
    (acc.1 ++ [hit.item],
      match hit.content with
      | none => acc.2
      | some markdown => acc.2.set hit.url ⟨markdown, some hit.title⟩)

def search (backend : Backend) (x : OllamaWebExecutor) (query : String) (maxResults : Option ℕ) :
    Except TypeError SearchResult × OllamaWebExecutor :=
  let request := Post.webSearch query (maxResults.getD 5)
  let sent : OllamaWebExecutor := ⟨x.prefetch, x.posts ++ [request]⟩
  match post (backend x.posts request) with
  | .err _ reason => (.ok (.failed (searchErrorFromPost reason)), sent)
  | .ok data =>
    match Val.prop (some data) "results" with
    | .error e => (.error e, sent)
    | .ok results =>
      match Val.asArray results with
      | none => (.ok (.failed .unavailable), sent)
      | some raws =>
        let taken := raws.foldl takeRaw ([], x.prefetch)
        (.ok (.ok taken.1), { sent with prefetch := taken.2 })

def fetch (backend : Backend) (x : OllamaWebExecutor) (url : String) (maxChars : Option ℕ) :
    Except TypeError FetchResult × OllamaWebExecutor :=
  let (cached, prefetch) := x.prefetch.get url
  match cached with
  | some page => (.ok (page.result maxChars), { x with prefetch })
  | none =>
    (fetched (backend x.posts (.webFetch url)) maxChars, ⟨prefetch, x.posts ++ [.webFetch url]⟩)

end OllamaWebExecutor

/-! ## The reference -/

/-- The requests that were sent, the pages that searches found, and these together with the pages
that were read again; the latest first. -/
structure Reference where
  posts : List Post
  found : List (String × Page)
  touched : List (String × Page)

namespace Reference

def empty : Reference := ⟨[], [], []⟩

/-- The page found last, unless too many others were found or read again since. -/
def page (r : Reference) (url : String) : Option Page :=
  if (Recency.since r.touched url).card < OllamaWebExecutor.PREFETCH_MAX then r.found.lookup url
  else none

/-- The results that a search brings. -/
def hitsOf (reply : Reply) : List RawHit :=
  match post reply with
  | .err _ _ => []
  | .ok data => ((Val.asArray (data.get "results")).getD []).filterMap rawHit

def searched (reply : Reply) : Except TypeError SearchResult :=
  match post reply with
  | .err _ reason => .ok (.failed (searchErrorFromPost reason))
  | .ok data => (Val.prop (some data) "results").map fun results =>
    if (Val.asArray results).isSome then .ok ((hitsOf reply).map RawHit.item)
    else .failed .unavailable

def search (backend : Backend) (r : Reference) (query : String) (maxResults : Option ℕ) :
    Except TypeError SearchResult × Reference :=
  let request := Post.webSearch query (maxResults.getD 5)
  let reply := backend r.posts request
  let pages := ((hitsOf reply).filterMap RawHit.page).reverse
  (searched reply, ⟨r.posts ++ [request], pages ++ r.found, pages ++ r.touched⟩)

def fetch (backend : Backend) (r : Reference) (url : String) (maxChars : Option ℕ) :
    Except TypeError FetchResult × Reference :=
  match r.page url with
  | some page => (.ok (page.result maxChars), { r with touched := (url, page) :: r.touched })
  | none =>
    (fetched (backend r.posts (.webFetch url)) maxChars,
      { r with posts := r.posts ++ [.webFetch url] })

end Reference

/-! ## Calls -/

inductive HostedCall where
  | search (query : String) (maxResults : Option ℕ)
  | fetch (url : String) (maxChars : Option ℕ)

inductive HostedAnswer where
  | searched (result : Except TypeError SearchResult)
  | fetched (result : Except TypeError FetchResult)

def OllamaWebExecutor.step (backend : Backend) (x : OllamaWebExecutor) :
    HostedCall → HostedAnswer × OllamaWebExecutor
  | .search query maxResults =>
    let (result, x) := x.search backend query maxResults
    (.searched result, x)
  | .fetch url maxChars =>
    let (result, x) := x.fetch backend url maxChars
    (.fetched result, x)

def OllamaWebExecutor.run (backend : Backend) (x : OllamaWebExecutor) :
    List HostedCall → List HostedAnswer × OllamaWebExecutor
  | [] => ([], x)
  | call :: calls =>
    let (answer, x) := x.step backend call
    let (answers, x) := x.run backend calls
    (answer :: answers, x)

def Reference.step (backend : Backend) (r : Reference) : HostedCall → HostedAnswer × Reference
  | .search query maxResults =>
    let (result, r) := r.search backend query maxResults
    (.searched result, r)
  | .fetch url maxChars =>
    let (result, r) := r.fetch backend url maxChars
    (.fetched result, r)

def Reference.run (backend : Backend) (r : Reference) :
    List HostedCall → List HostedAnswer × Reference
  | [] => ([], r)
  | call :: calls =>
    let (answer, r) := r.step backend call
    let (answers, r) := r.run backend calls
    (answer :: answers, r)

/-! ## The simulation -/

/-- The cache recalls what was touched, and every page touched last was found last. -/
structure Follows (x : OllamaWebExecutor) (r : Reference) : Prop where
  posts : x.posts = r.posts
  recalls : x.prefetch.Recalls r.touched
  max : x.prefetch.max = OllamaWebExecutor.PREFETCH_MAX
  lookup : ∀ url, r.touched.lookup url = r.found.lookup url

theorem follows_new : Follows .new .empty where
  posts := rfl
  recalls := Cache.new_recalls _ _
  max := rfl
  lookup _ := rfl

/-- The loop lists every hit and keeps every page. -/
theorem foldl_takeRaw (raws : List Json) (items : List SearchHit) (c : Cache String Page) :
    raws.foldl OllamaWebExecutor.takeRaw (items, c) =
      (items ++ (raws.filterMap rawHit).map RawHit.item,
        ((raws.filterMap rawHit).filterMap RawHit.page).foldl (fun c e => c.set e.1 e.2) c) := by
  induction raws generalizing items c with
  | nil => simp
  | cons raw raws ih =>
    rw [List.foldl_cons, OllamaWebExecutor.takeRaw]
    cases hhit : rawHit raw with
    | none =>
      rw [List.filterMap_cons_none hhit]
      exact ih items c
    | some hit =>
      obtain ⟨url, title, content⟩ := hit
      rw [List.filterMap_cons_some hhit]
      dsimp only
      rw [ih, List.append_assoc]
      cases content <;> rfl

variable {backend : Backend} {x : OllamaWebExecutor} {r : Reference}

namespace Follows

/-- What the cache returns is what the reference remembers. -/
theorem get_eq_page (h : Follows x r) (url : String) : x.prefetch.store.get url = r.page url := by
  refine Option.ext fun page => ?_
  rw [h.recalls.get_eq_some_iff, h.max, h.lookup, Reference.page, Option.ite_none_right_eq_some,
    and_comm]

theorem search (h : Follows x r) (query : String) (maxResults : Option ℕ) :
    (x.search backend query maxResults).1 = (r.search backend query maxResults).1 ∧
      Follows (x.search backend query maxResults).2 (r.search backend query maxResults).2 := by
  simp only [OllamaWebExecutor.search, Reference.search, Reference.searched, h.posts]
  generalize backend r.posts (.webSearch query (maxResults.getD 5)) = reply
  have hnone : Reference.hitsOf reply = [] →
      Follows ⟨x.prefetch, r.posts ++ [.webSearch query (maxResults.getD 5)]⟩
        ⟨r.posts ++ [.webSearch query (maxResults.getD 5)],
          ((Reference.hitsOf reply).filterMap RawHit.page).reverse ++ r.found,
          ((Reference.hitsOf reply).filterMap RawHit.page).reverse ++ r.touched⟩ := by
    intro hhits
    rw [hhits]
    exact ⟨rfl, h.recalls, h.max, h.lookup⟩
  cases hpost : post reply with
  | err status reason => exact ⟨rfl, hnone (by rw [Reference.hitsOf, hpost])⟩
  | ok data =>
    have hhits : Reference.hitsOf reply =
        ((Val.asArray (data.get "results")).getD []).filterMap rawHit := by
      rw [Reference.hitsOf, hpost]
    dsimp only
    cases hresults : Val.prop (some data) "results" with
    | error e =>
      refine ⟨rfl, hnone ?_⟩
      cases data <;> first | exact hhits | cases hresults
    | ok results =>
      obtain rfl : data.get "results" = results := by
        cases data <;> first | exact Except.ok.inj hresults | cases hresults
      dsimp only [Except.map]
      cases harray : Val.asArray (data.get "results") with
      | none => exact ⟨rfl, hnone (by rw [hhits, harray]; rfl)⟩
      | some raws =>
        rw [harray, Option.getD_some] at hhits
        dsimp only
        rw [foldl_takeRaw, hhits]
        obtain ⟨hrecalls, hmax⟩ := h.recalls.setAll (by rw [h.max]; decide)
          ((raws.filterMap rawHit).filterMap RawHit.page)
        refine ⟨rfl, rfl, hrecalls, hmax.trans h.max, fun url => ?_⟩
        rw [List.lookup_append, List.lookup_append, h.lookup]

theorem fetch (h : Follows x r) (url : String) (maxChars : Option ℕ) :
    (x.fetch backend url maxChars).1 = (r.fetch backend url maxChars).1 ∧
      Follows (x.fetch backend url maxChars).2 (r.fetch backend url maxChars).2 := by
  have hmax : (x.prefetch.get url).2.max = OllamaWebExecutor.PREFETCH_MAX :=
    (x.prefetch.step_name_max (.get url)).2.trans h.max
  have hpage := h.get_eq_page url
  rw [Reference.fetch, OllamaWebExecutor.fetch]
  cases hget : r.page url with
  | some page =>
    obtain ⟨hcached, hrecalls⟩ := h.recalls.get_hit (hpage.trans hget)
    generalize x.prefetch.get url = got at hmax hcached hrecalls ⊢
    obtain ⟨cached, prefetch⟩ := got
    obtain rfl : cached = some page := hcached
    have hfound : r.found.lookup url = some page := (Option.ite_none_right_eq_some.1 hget).2
    refine ⟨rfl, h.posts, hrecalls, hmax, fun url' => ?_⟩
    -- a page that is read again is the one found last
    rw [List.lookup_cons]
    cases hurl : url' == url with
    | true => rw [eq_of_beq hurl, hfound]
    | false => exact h.lookup url'
  | none =>
    obtain ⟨hcached, hrecalls⟩ := h.recalls.get_miss (hpage.trans hget)
    generalize x.prefetch.get url = got at hmax hcached hrecalls ⊢
    obtain ⟨cached, prefetch⟩ := got
    obtain rfl : cached = none := hcached
    rw [h.posts]
    exact ⟨rfl, rfl, hrecalls, hmax, h.lookup⟩

theorem step (h : Follows x r) (call : HostedCall) :
    (x.step backend call).1 = (r.step backend call).1 ∧
      Follows (x.step backend call).2 (r.step backend call).2 := by
  cases call with
  | search query maxResults =>
    obtain ⟨hanswer, hfollows⟩ :
        (x.search backend query maxResults).1 = (r.search backend query maxResults).1 ∧
          Follows (x.search backend query maxResults).2 (r.search backend query maxResults).2 :=
      h.search query maxResults
    exact ⟨congrArg HostedAnswer.searched hanswer, hfollows⟩
  | fetch url maxChars =>
    obtain ⟨hanswer, hfollows⟩ :
        (x.fetch backend url maxChars).1 = (r.fetch backend url maxChars).1 ∧
          Follows (x.fetch backend url maxChars).2 (r.fetch backend url maxChars).2 :=
      h.fetch url maxChars
    exact ⟨congrArg HostedAnswer.fetched hanswer, hfollows⟩

theorem run (h : Follows x r) (calls : List HostedCall) :
    (x.run backend calls).1 = (r.run backend calls).1 ∧
      Follows (x.run backend calls).2 (r.run backend calls).2 := by
  induction calls generalizing x r with
  | nil => exact ⟨rfl, h⟩
  | cons call calls ih =>
    obtain ⟨hanswer, hfollows⟩ :
        (x.step backend call).1 = (r.step backend call).1 ∧
          Follows (x.step backend call).2 (r.step backend call).2 := h.step call
    obtain ⟨hanswers, hrun⟩ := ih hfollows
    exact ⟨congrArg₂ List.cons hanswer hanswers, hrun⟩

/-- While no more addresses were found than there is room for, no page is passed over. -/
theorem page_eq_found (h : Follows x r)
    (hfew : (r.found.map Prod.fst).toFinset.card ≤ OllamaWebExecutor.PREFETCH_MAX) (url : String) :
    r.page url = r.found.lookup url := by
  have hkeys : (r.touched.map Prod.fst).toFinset = (r.found.map Prod.fst).toFinset := by
    refine Finset.ext fun k => ?_
    rw [List.mem_toFinset, List.mem_toFinset, Recency.mem_map_fst, Recency.mem_map_fst, h.lookup]
  rw [Reference.page, ite_eq_left_iff]
  intro hmany
  refine (Option.eq_none_iff_forall_ne_some.2 fun page hpage => hmany ?_).symm
  have hmem : url ∈ r.touched.map Prod.fst :=
    Recency.mem_map_fst.2 ⟨page, (h.lookup url).trans hpage⟩
  exact (Recency.card_since_lt hmem).trans_le (hkeys ▸ hfew)

end Follows

/-- Through all calls the executor gives the answers of the reference and sends its requests: a
page that a search found is fetched without a request as long as fewer than fifty others were
found or read again since, and never another than the one found last. Up to fifty addresses,
every page found is at hand. -/
theorem ollama_follows_reference (backend : Backend) (calls : List HostedCall) :
    (OllamaWebExecutor.new.run backend calls).1 = (Reference.empty.run backend calls).1 ∧
      (OllamaWebExecutor.new.run backend calls).2.posts =
        (Reference.empty.run backend calls).2.posts ∧
      (((Reference.empty.run backend calls).2.found.map Prod.fst).toFinset.card ≤
          OllamaWebExecutor.PREFETCH_MAX →
        ∀ url, (Reference.empty.run backend calls).2.page url =
          (Reference.empty.run backend calls).2.found.lookup url) := by
  obtain ⟨hanswers, hfollows⟩ :
      (OllamaWebExecutor.new.run backend calls).1 = (Reference.empty.run backend calls).1 ∧
        Follows (OllamaWebExecutor.new.run backend calls).2
          (Reference.empty.run backend calls).2 := follows_new.run calls
  exact ⟨hanswers, hfollows.posts, hfollows.page_eq_found⟩

/-- Every search finds one page. -/
def onePage : Backend
  | _, .webSearch _ _ => .response 200 (some (.object [("results", .array [.object [
      ("url", .string "https://a.example"), ("title", .string "A"), ("content", .string "text")]])]))
  | _, .webFetch _ => .failed false

theorem ollama_follows_reference_onePage :
    (Reference.empty.run onePage [.search "a" none]).2.page "https://a.example" =
      some ⟨"text", some "A"⟩ := by
  have hfew : (((Reference.empty.run onePage [.search "a" none]).2.found.map
      Prod.fst).toFinset).card ≤ OllamaWebExecutor.PREFETCH_MAX := by
    decide +kernel
  rw [(ollama_follows_reference onePage [.search "a" none]).2.2 hfew]
  decide +kernel

end Maximal.WebTools
