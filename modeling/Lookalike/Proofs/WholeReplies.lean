import Lookalike.Engine.Client
import Lookalike.Proofs.PageSizes
import Lookalike.Proofs.RecordedServices
import Lookalike.Proofs.ValidConfig

/-! # Whole replies

The client takes the reply to a batch as a whole or not at all: it has to be JSON that lists one response
for each search, and every response has to have hits with a total and no error.  `Reply.Reads` says what
the page of such a response is.  A round of a run therefore never fails for the number of its pages, and
each page is merged for the search that stands at the same place as its response.

Main statement: `SearchClient.execute_whole`. -/

namespace Lookalike

/-! ### Lists, member by member -/

section Lists

variable {α β : Type} {R : α → β → Prop} {xs : List α} {ys : List β}

theorem forall_mem_iff_of_forall₂ (h : List.Forall₂ R xs ys) {P : α → Prop} {Q : β → Prop}
    (hR : ∀ x y, R x y → (P x ↔ Q y)) : (∀ x ∈ xs, P x) ↔ ∀ y ∈ ys, Q y := by
  induction h with
  | nil => simp
  | cons hxy _ ih => rw [List.forall_mem_cons, List.forall_mem_cons, hR _ _ hxy, ih]

theorem forall_mem_of_forall₂ (h : List.Forall₂ R xs ys) {P : α → Prop}
    (hR : ∀ x y, R x y → P x) : ∀ x ∈ xs, P x := by
  have htrue (x : α) (y : β) (hxy : R x y) : P x ↔ True := iff_true_intro (hR x y hxy)
  exact (forall_mem_iff_of_forall₂ h htrue).mpr fun _ _ => trivial

end Lists

/-! ### Responses -/

theorem mapError_eq_ok_iff {ε ε' α : Type} {f : ε → ε'} {x : Except ε α} {a : α} :
    x.mapError f = .ok a ↔ x = .ok a := by
  cases x <;> simp [Except.mapError]

theorem Json.word?_eq_some_iff {v : Json} {n : UInt64} :
    v.word? = some n ↔ v = .integer n.toNat := by
  cases v with
  | integer i =>
      have hsize := n.toNat_lt_size
      rw [word?, Json.integer.injEq]
      split_ifs with hfits
      · have hlt : i.toNat < UInt64.size := by omega
        rw [Option.some.injEq, ← UInt64.toNat_inj, UInt64.toNat_ofNat_of_lt' hlt]
        omega
      · simp only [false_iff]
        omega
  | _ => simp [word?]

namespace Reply

/-- Some hits have an unsigned total, which may stand inside an object. -/
def Totals (hits : Json) (n : UInt64) : Prop :=
  ∃ total, hits.member? "total" = some total ∧
    (total = .integer n.toNat ∨ total.member? "value" = some (.integer n.toNat))

/-- A response is whole: it has no error, and it has hits with a total. -/
structure Whole (response : Json) : Prop where
  noError : response.member? "error" = none
  hits : ∃ hits n, response.member? "hits" = some hits ∧ Totals hits n

/-- A page holds what a whole response says: the total, the greatest score if there is one, and the
listed documents that have an identity key. -/
structure Reads (identityKeyField : String) (response : Json) (page : SearchPage) : Prop where
  noError : response.member? "error" = none
  hits : ∃ hits, response.member? "hits" = some hits ∧ Totals hits page.total ∧
    page.maxScore = (hits.member? "max_score").bind Json.number? ∧
    page.hits = (((hits.member? "hits").bind Json.items?).getD []).filterMap
      (hit? identityKeyField)

theorem total?_eq_some_iff {hits : Json} {n : UInt64} : total? hits = some n ↔ Totals hits n := by
  have hvalue (total : Json) : (total.member? "value").bind Json.word? = some n ↔
      total.member? "value" = some (.integer n.toNat) := by
    simp [Option.bind_eq_some_iff, Json.word?_eq_some_iff]
  unfold total? Totals
  rw [Option.bind_eq_some_iff]
  refine exists_congr fun total => and_congr_right fun _ => ?_
  cases total with
  | object members =>
      have hword : (Json.object members).word? = none := rfl
      rw [hword, Option.or_none, hvalue]
      simp
  | _ => simp [Json.member?, Json.word?_eq_some_iff]

theorem page_eq_ok_iff {identityKeyField : String} {position : ℕ} {response : Json}
    {p : SearchPage} :
    page identityKeyField position response = .ok p ↔ Reads identityKeyField response p := by
  unfold page
  constructor
  · intro h
    cases herror : response.member? "error" with
    | some error =>
        rw [herror] at h
        cases h
    | none =>
        rw [herror] at h
        cases hhits : response.member? "hits" with
        | none =>
            rw [hhits] at h
            cases h
        | some hits =>
            rw [hhits] at h
            cases htotal : total? hits with
            | none =>
                simp only [htotal] at h
                cases h
            | some total =>
                simp only [htotal] at h
                obtain rfl := Except.ok.inj h
                exact ⟨herror, hits, hhits, total?_eq_some_iff.mp htotal, rfl, rfl⟩
  · rintro ⟨herror, hits, hhits, htotal, hmax, hlisted⟩
    rw [herror, hhits]
    simp only [total?_eq_some_iff.mpr htotal, ← hmax, ← hlisted]

theorem pagesFrom_eq_ok_iff {identityKeyField : String} {position : ℕ} {responses : List Json}
    {ps : List SearchPage} :
    pagesFrom identityKeyField position responses = .ok ps ↔
      List.Forall₂ (Reads identityKeyField) responses ps := by
  induction responses generalizing position ps with
  | nil =>
      rw [List.forall₂_nil_left_iff, pagesFrom, Except.ok.injEq, eq_comm]
  | cons response responses ih =>
      rw [pagesFrom, List.forall₂_cons_left_iff, bind_eq_ok_iff]
      constructor
      · rintro ⟨p, hp, hrest⟩
        obtain ⟨rest, hrest, hps⟩ := bind_eq_ok_iff.mp hrest
        exact ⟨p, rest, page_eq_ok_iff.mp hp, ih.mp hrest, (Except.ok.inj hps).symm⟩
      · rintro ⟨p, rest, hp, hrest, rfl⟩
        refine ⟨p, page_eq_ok_iff.mpr hp, ?_⟩
        rw [ih.mpr hrest]
        rfl

theorem bind_items?_eq_some_iff {v : Option Json} {items : List Json} :
    v.bind Json.items? = some items ↔ v = some (.array items) := by
  rw [Option.bind_eq_some_iff]
  constructor
  · rintro ⟨w, rfl, hw⟩
    cases w with
    | array _ => rw [Option.some.inj hw]
    | _ => cases hw
  · exact fun h => ⟨_, h, rfl⟩

theorem pages_eq_ok_iff {reply : Json} {expected : ℕ} {identityKeyField : String}
    {ps : List SearchPage} :
    pages reply expected identityKeyField = .ok ps ↔
      ∃ responses, reply.member? "responses" = some (.array responses) ∧
        responses.length = expected ∧ List.Forall₂ (Reads identityKeyField) responses ps := by
  unfold pages
  cases hlisted : (reply.member? "responses").bind Json.items? with
  | none =>
      constructor
      · intro h
        cases h
      · rintro ⟨responses, hresponses, -⟩
        rw [bind_items?_eq_some_iff.mpr hresponses] at hlisted
        cases hlisted
  | some responses =>
      have hresponses := bind_items?_eq_some_iff.mp hlisted
      dsimp only
      split_ifs with hlength
      · constructor
        · intro h
          cases h
        · rintro ⟨others, hothers, hcount, -⟩
          rw [hresponses] at hothers
          obtain rfl : responses = others := Json.array.inj (Option.some.inj hothers)
          exact absurd hcount hlength
      · rw [pagesFrom_eq_ok_iff]
        constructor
        · exact fun h => ⟨responses, hresponses, not_not.mp hlength, h⟩
        · rintro ⟨others, hothers, -, h⟩
          rw [hresponses] at hothers
          obtain rfl : responses = others := Json.array.inj (Option.some.inj hothers)
          exact h

theorem whole_iff {identityKeyField : String} {response : Json} :
    Whole response ↔ ∃ page, Reads identityKeyField response page := by
  constructor
  · rintro ⟨herror, hits, n, hhits, htotal⟩
    exact ⟨⟨n, _, _⟩, herror, hits, hhits, htotal, rfl, rfl⟩
  · rintro ⟨page, herror, hits, hhits, htotal, -⟩
    exact ⟨herror, hits, page.total, hhits, htotal⟩

theorem forall_whole_iff (identityKeyField : String) {responses : List Json} :
    (∀ r ∈ responses, Whole r) ↔ ∃ ps, List.Forall₂ (Reads identityKeyField) responses ps := by
  induction responses with
  | nil => exact ⟨fun _ => ⟨[], .nil⟩, fun _ => List.forall_mem_nil _⟩
  | cons r rs ih =>
      rw [List.forall_mem_cons, ih]
      constructor
      · rintro ⟨hr, ps, hps⟩
        obtain ⟨p, hp⟩ := whole_iff.mp hr
        exact ⟨p :: ps, .cons hp hps⟩
      · rintro ⟨ps, hps⟩
        cases hps with
        | cons hp hps => exact ⟨whole_iff.mpr ⟨_, hp⟩, _, hps⟩

end Reply

/-! ### Deliveries -/

/-- What was sent over a transport, with what came back. -/
structure Delivery where
  request : HttpRequest
  answer : Except TransportError HttpReply

/-- The transport with notes of what was sent and what came back, in order. -/
def Transport.recorded {σ : Type} (transport : Transport σ) : Transport (σ × List Delivery) where
  send request := fun (world, notes) =>
    let (answer, next) := (transport.send request).run world
    (answer, (next, notes ++ [⟨request, answer⟩]))

namespace Delivery

variable (d : Delivery)

/-- What came back is JSON that lists some responses. -/
def Lists (responses : List Json) : Prop :=
  ∃ reply v, d.answer = .ok reply ∧ SearchClient.replyJson reply = .ok v ∧
    v.member? "responses" = some (.array responses)

/-- What came back is whole for a number of searches: a whole response for each. -/
def Whole (expected : ℕ) : Prop :=
  ∃ responses, d.Lists responses ∧ responses.length = expected ∧ ∀ r ∈ responses, Reply.Whole r

/-- What came back lists one response for each of a number of searches, and some pages are those of the
responses in order. -/
def Yields (identityKeyField : String) (expected : ℕ) (ps : List SearchPage) : Prop :=
  ∃ responses, d.Lists responses ∧ responses.length = expected ∧
    List.Forall₂ (Reply.Reads identityKeyField) responses ps

variable {d}

theorem whole_iff (identityKeyField : String) {expected : ℕ} :
    d.Whole expected ↔ ∃ ps, d.Yields identityKeyField expected ps := by
  unfold Whole Yields
  simp only [Reply.forall_whole_iff identityKeyField]
  constructor
  · rintro ⟨responses, hlists, hlength, ps, hps⟩
    exact ⟨ps, responses, hlists, hlength, hps⟩
  · rintro ⟨ps, responses, hlists, hlength, hps⟩
    exact ⟨responses, hlists, hlength, ps, hps⟩

theorem Yields.length_eq {identityKeyField : String} {expected : ℕ} {ps : List SearchPage}
    (h : d.Yields identityKeyField expected ps) : ps.length = expected := by
  obtain ⟨responses, -, hlength, hps⟩ := h
  rw [← hps.length_eq, hlength]

theorem pages_eq_ok_iff {c : SearchClient} {expected : ℕ} {ps : List SearchPage} :
    c.pages expected d.answer = .ok ps ↔ d.Yields c.identityKeyField expected ps := by
  have hjson (v : Json) : (d.answer >>= SearchClient.replyJson) = .ok v ↔
      ∃ reply, d.answer = .ok reply ∧ SearchClient.replyJson reply = .ok v := bind_eq_ok_iff
  unfold SearchClient.pages Yields Lists
  simp only [bind_eq_ok_iff, mapError_eq_ok_iff, hjson, Reply.pages_eq_ok_iff]
  constructor
  · rintro ⟨v, ⟨reply, hreply, hv⟩, responses, hresponses, hrest⟩
    exact ⟨responses, ⟨reply, v, hreply, hv, hresponses⟩, hrest⟩
  · rintro ⟨responses, ⟨reply, v, hreply, hv, hresponses⟩, hrest⟩
    exact ⟨v, ⟨reply, hreply, hv⟩, responses, hresponses, hrest⟩

end Delivery

/-! ### Merges of fitting answers -/

namespace Exchange

/-- The answer is a failure or has a page for each of the searches, of which there are some. -/
def Fits (x : Exchange) : Prop :=
  ∀ pages, x.answer = .ok pages → x.searches ≠ [] ∧ pages.length = x.searches.length

/-- The merge of a fitting answer never fails by itself. -/
theorem Fits.mergeAnswer_eq {x : Exchange} (h : x.Fits) (s : ResultSet) :
    mergeAnswer s x.searches x.answer =
      match x.answer with
      | .error e => .error e.toService
      | .ok pages => .ok (ResultSet.largestTotal pages, s.addPages x.answered) := by
  unfold answered Exchange.pages
  cases hanswer : x.answer with
  | error e => rfl
  | ok pages =>
      obtain ⟨hsome, hlength⟩ := h pages hanswer
      have hpages : ¬ pages.isEmpty = true := by
        rw [List.isEmpty_iff, ← List.length_eq_zero_iff, hlength, List.length_eq_zero_iff]
        exact hsome
      rw [mergeAnswer, ResultSet.mergeRound, if_neg hpages, if_neg (not_not.mpr hlength)]
      rfl

end Exchange

section replay

variable {log : List Exchange} {s t : ResultSet}

theorem replay_eq_ok_iff (hfits : ∀ x ∈ log, x.Fits) :
    replay s log = .ok t ↔ (∀ x ∈ log, ∃ pages, x.answer = .ok pages) ∧
      t = s.addPages (log.flatMap Exchange.answered) := by
  induction log generalizing s with
  | nil =>
      rw [replay, Except.ok.injEq, List.flatMap_nil, eq_comm]
      exact ⟨fun h => ⟨List.forall_mem_nil _, h⟩, fun h => h.2⟩
  | cons x log ih =>
      obtain ⟨hx, hrest⟩ := List.forall_mem_cons.mp hfits
      rw [replay, hx.mergeAnswer_eq, List.forall_mem_cons]
      cases hanswer : x.answer with
      | error e => simp
      | ok pages =>
          dsimp only
          rw [ih hrest, List.flatMap_cons, ResultSet.addPages_append]
          simp

/-- Only a failure of the backend ends the merges of fitting answers. -/
theorem toService_of_replay_eq_error (hfits : ∀ x ∈ log, x.Fits) {e : ServiceError}
    (h : replay s log = .error e) : ∃ source : BackendError, e = source.toService := by
  induction log generalizing s with
  | nil => cases h
  | cons x log ih =>
      obtain ⟨hx, hrest⟩ := List.forall_mem_cons.mp hfits
      rw [replay, hx.mergeAnswer_eq] at h
      cases hanswer : x.answer with
      | error source =>
          rw [hanswer] at h
          injection h with h
          exact ⟨source, h.symm⟩
      | ok pages =>
          rw [hanswer] at h
          exact ih hrest h

end replay

theorem BackendError.toService_ne_aggregation (e : BackendError) (fault : MergeFault) :
    e.toService ≠ .aggregation fault := by
  unfold toService
  cases e.kind <;> simp

/-! ### Runs -/

namespace SearchClient

variable {σ : Type} (c : SearchClient) (transport : Transport σ) {ds : List Descriptor}

/-- A delivery is what an exchange on some searches comes from: the request was for its window, and its
answer is read off what came back. -/
structure Feeds (ds : List Descriptor) (d : Delivery) (x : Exchange) : Prop where
  searches : x.searches = ds
  request : d.request = c.request ds x.window
  answer : x.answer = (c.pages ds.length d.answer).mapError ClientError.toBackend

namespace Feeds

variable {c} {d : Delivery} {x : Exchange}

theorem answer_eq_ok_iff (h : c.Feeds ds d x) {ps : List SearchPage} :
    x.answer = .ok ps ↔ d.Yields c.identityKeyField ds.length ps := by
  rw [h.answer, mapError_eq_ok_iff, Delivery.pages_eq_ok_iff]

theorem fits (h : c.Feeds ds d x) (hsome : ds ≠ []) : x.Fits := by
  intro pages hpages
  rw [h.searches]
  exact ⟨hsome, (h.answer_eq_ok_iff.mp hpages).length_eq⟩

theorem exists_answer_iff (h : c.Feeds ds d x) :
    (∃ pages, x.answer = .ok pages) ↔ d.Whole ds.length := by
  simp only [h.answer_eq_ok_iff, Delivery.whole_iff c.identityKeyField]

theorem yields_pages (h : c.Feeds ds d x) (hwhole : d.Whole ds.length) :
    d.Yields c.identityKeyField ds.length x.pages := by
  obtain ⟨ps, hps⟩ := (Delivery.whole_iff c.identityKeyField).mp hwhole
  have hanswer := h.answer_eq_ok_iff.mpr hps
  unfold Exchange.pages
  rwa [hanswer]

end Feeds

theorem run_search_of_ne (hsome : ds ≠ []) (w : Window) (world : σ) :
    ((c.backend transport).search ds w).run world =
      ((c.pages ds.length ((transport.send (c.request ds w)).run world).1).mapError
          ClientError.toBackend,
        ((transport.send (c.request ds w)).run world).2) := by
  have hds : ¬ ds.isEmpty = true := fun h => hsome (List.isEmpty_iff.mp h)
  unfold backend search
  dsimp only
  rw [if_neg hds]
  rfl

theorem backend_recorded_erases :
    (c.backend transport.recorded).Erases Prod.fst (c.backend transport) := by
  intro ds w world
  by_cases hsome : ds = []
  · subst hsome
    rfl
  · rw [run_search_of_ne c transport hsome, run_search_of_ne c transport.recorded hsome]
    rfl

/-- Each round sends one request, and its exchange comes from what came back. -/
theorem search_recorded_feeds (hsome : ds ≠ []) (w : Window)
    (world : (σ × List Delivery) × List Exchange)
    (h : List.Forall₂ (c.Feeds ds) world.1.2 world.2) :
    List.Forall₂ (c.Feeds ds)
      (((c.backend transport.recorded).recorded.search ds w).run world).2.1.2
      (((c.backend transport.recorded).recorded.search ds w).run world).2.2 := by
  obtain ⟨⟨world, deliveries⟩, exchanges⟩ := world
  rw [SearchBackend.run_search_recorded, run_search_of_ne c transport.recorded hsome]
  exact List.rel_append h (.cons ⟨rfl, rfl, rfl⟩ .nil)

/-- A run of a batch through the client with the notes of what was sent and what came back, beside the
exchanges of the batch that come from it. -/
theorem run_execute_fed (hsome : ds ≠ []) {pageSize : UInt32} (hpage : pageSize ≠ 0)
    (maxResults : UInt32) (world : σ) :
    ∃ result next log exchanges,
      ((c.backend transport.recorded).execute ds pageSize maxResults).run.run (world, []) =
        (result, next, log) ∧
      List.Forall₂ (c.Feeds ds) log exchanges ∧ exchanges ≠ [] ∧
      replay .empty exchanges = result := by
  obtain ⟨result, ⟨next, log⟩, first, rest, hnoted, hrun, hfollows⟩ :=
    (c.backend transport.recorded).run_execute_recorded ds hsome hpage maxResults (world, [])
  have hfeeds := SearchBackend.execute_preserves (fun w => c.search_recorded_feeds transport hsome w)
    pageSize maxResults ((world, []), []) .nil
  rw [hnoted] at hfeeds
  exact ⟨result, next, log, first :: rest, hrun, hfeeds, List.cons_ne_nil _ _, hfollows.replayed⟩

/-- A run of a batch through the client takes whole replies only, whatever comes back.  It has the
result that it has without notes and never fails for the number of pages.  It succeeds exactly if the
page size is not zero and everything that came back is whole: a response for each search, each with
hits and a total and without an error.  Then the pages are those of the responses, and each is merged for
the search at the place of its response, round by round. -/
theorem execute_whole (hsome : ds ≠ []) (pageSize maxResults : UInt32) (world : σ) :
    ∃ result next log,
      ((c.backend transport.recorded).execute ds pageSize maxResults).run.run (world, []) =
        (result, next, log) ∧
      ((c.backend transport).execute ds pageSize maxResults).run.run world = (result, next) ∧
      (∀ d ∈ log, ∃ w, d.request = c.request ds w) ∧
      (∀ fault, result ≠ .error (.aggregation fault)) ∧
      ((∃ found, result = .ok found) ↔ pageSize ≠ 0 ∧ ∀ d ∈ log, d.Whole ds.length) ∧
      ∀ found, result = .ok found → log ≠ [] ∧ ∃ rounds : List (List SearchPage),
        List.Forall₂ (fun d pages => d.Yields c.identityKeyField ds.length pages) log rounds ∧
        found = ResultSet.empty.addPages (rounds.flatMap (ds.zip ·)) ∧
        Gathers (rounds.flatMap (ds.zip ·)) found := by
  by_cases hpage : pageSize = 0
  · subst hpage
    have hds : ¬ ds.isEmpty = true := fun h => hsome (List.isEmpty_iff.mp h)
    rw [SearchBackend.execute, SearchBackend.execute, if_neg hds, if_neg hds, if_pos rfl, if_pos rfl]
    refine ⟨.error (.invalidRequest .zeroPageSize), world, [], rfl, rfl, List.forall_mem_nil _, ?_,
      ?_, forall_result_error⟩
    · intro fault haggregation
      cases haggregation
    · constructor
      · rintro ⟨found, hfound⟩
        cases hfound
      · rintro ⟨hzero, -⟩
        exact absurd rfl hzero
  obtain ⟨result, next, log, exchanges, hrun, hfeeds, hexchanges, hreplay⟩ :=
    c.run_execute_fed transport hsome hpage maxResults world
  have hplain := SearchBackend.execute_erases (c.backend_recorded_erases transport) ds pageSize
    maxResults (world, [])
  rw [hrun] at hplain
  have hrequests : ∀ d ∈ log, ∃ w, d.request = c.request ds w :=
    forall_mem_of_forall₂ hfeeds fun _ x h => ⟨x.window, h.request⟩
  have hfits : ∀ x ∈ exchanges, x.Fits := forall_mem_of_forall₂ hfeeds.flip fun _ _ h => h.fits hsome
  have hsearches : ∀ x ∈ exchanges, x.searches = ds :=
    forall_mem_of_forall₂ hfeeds.flip fun _ _ h => h.searches
  have hwhole : (∀ d ∈ log, d.Whole ds.length) ↔ ∀ x ∈ exchanges, ∃ pages, x.answer = .ok pages :=
    forall_mem_iff_of_forall₂ hfeeds fun _ _ h => h.exists_answer_iff.symm
  have hok (found : ResultSet) := replay_eq_ok_iff (s := .empty) (t := found) hfits
  refine ⟨result, next, log, hrun, hplain, hrequests, ?_, ?_, ?_⟩
  · intro fault haggregation
    rw [haggregation] at hreplay
    obtain ⟨source, hsource⟩ := toService_of_replay_eq_error hfits hreplay
    exact source.toService_ne_aggregation fault hsource.symm
  · constructor
    · rintro ⟨found, rfl⟩
      exact ⟨hpage, hwhole.mpr ((hok found).mp hreplay).1⟩
    · rintro ⟨-, hlog⟩
      exact ⟨_, hreplay.symm.trans ((hok _).mpr ⟨hwhole.mp hlog, rfl⟩)⟩
  · rintro found rfl
    obtain ⟨hanswers, hfound⟩ := (hok found).mp hreplay
    have hrounds := (List.forall₂_and_left _ _).mpr ⟨hwhole.mpr hanswers, hfeeds⟩
    have hanswered : exchanges.flatMap Exchange.answered =
        (exchanges.map Exchange.pages).flatMap (ds.zip ·) := by
      rw [List.flatMap_map]
      exact List.flatMap_congr fun x hx => by rw [Exchange.answered, hsearches x hx]
    rw [hanswered] at hfound
    refine ⟨?_, exchanges.map Exchange.pages, ?_, hfound, ?_⟩
    · rintro rfl
      exact hexchanges (List.forall₂_nil_left_iff.mp hfeeds)
    · rw [List.forall₂_map_right_iff]
      exact hrounds.imp fun d x h => h.2.yields_pages h.1
    · rw [hfound]
      simpa using Gathers.empty.addPages ((exchanges.map Exchange.pages).flatMap (ds.zip ·))

/-! ### Canned replies -/

/-- A transport that gives some JSON values one after the other, and then fails; the world is the number of
requests so far. -/
def canned (values : List Json) : Transport ℕ where
  send _ := fun sent =>
    (match values[sent]? with
      | some v => .ok ⟨200, v.text, ""⟩
      | none => .error (.failed "no more replies" false), sent + 1)

/-- A response with a total and the keys of the listed documents. -/
def cannedResponse (total : ℕ) (keys : List String) : Json :=
  .obj [("hits", .obj [("total", .nat total),
    ("hits", .array (keys.map fun key => .obj [("_id", .string key)]))])]

/-- Two rounds of replies to two searches, one of which has a hit more than a page. -/
def cannedRounds : List Json :=
  [.obj [("responses", .array [cannedResponse 2 ["a"], cannedResponse 1 ["b"]])],
    .obj [("responses", .array [cannedResponse 2 ["c"], cannedResponse 1 []])]]

/-- A client of an engine under test. -/
def cannedClient : SearchClient where
  url := "http://127.0.0.1:9200/_msearch"
  index := "identities"
  identityKeyField := "identity_key"
  headers := ∅

/-- Two searches of a rule. -/
def cannedSearches : List Descriptor := [{ marker := some ⟨"R", 0⟩ }, { marker := some ⟨"R", 1⟩ }]

/-- Both replies are whole, so the run succeeds with all hits. -/
theorem execute_whole_canned :
    ∃ found next log,
      ((cannedClient.backend (canned cannedRounds).recorded).execute cannedSearches 1 0).run.run
        (0, []) = (.ok found, next, log) ∧
      found.hits.keys = ["a", "b", "c"] ∧ ∀ d ∈ log, d.Whole 2 := by
  have hkeys : (((cannedClient.backend (canned cannedRounds)).execute cannedSearches 1 0).run.run
      0).1.map (·.hits.keys) = .ok ["a", "b", "c"] := by decide +kernel
  have hsome : cannedSearches ≠ [] := List.cons_ne_nil _ _
  obtain ⟨result, next, log, hrecorded, hrun, -, -, hwhole, -⟩ :=
    cannedClient.execute_whole (canned cannedRounds) hsome 1 0 0
  rw [hrun] at hkeys
  cases result with
  | error e => cases hkeys
  | ok found =>
      exact ⟨found, next, log, hrecorded, Except.ok.inj hkeys, (hwhole.mp ⟨found, rfl⟩).2⟩

end SearchClient

end Lookalike
