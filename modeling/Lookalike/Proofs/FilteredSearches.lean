import Lookalike.Proofs.BatchLines
import Lookalike.Proofs.Projections

/-! # Searches with an attributes filter

A request may filter the attributes that come back with its hits.  The filter becomes the projection of
each of its searches and nothing else of them.  If the engine returns of every document what the search
asks for, then the answers with and without the filter differ in documents only, and so do the results:
the base identity is recognized in both, and hits are kept apart or merged alike.

Main statement: `DuplicateService.filter_keeps_identities`. -/

namespace Lookalike

/-- The search with whole documents. -/
def Descriptor.unfiltered (d : Descriptor) : Descriptor := { d with sourceFields := [] }

/-! ### What a run depends on -/

namespace ResultSet

variable (s : ResultSet) {ds ds' : List Descriptor}

theorem addPages_zip (ds : List Descriptor) (pages : List SearchPage) :
    s.addPages (ds.zip pages) =
      ((ds.map Descriptor.label).zip pages).foldl (fun s lp => s.addPage lp.1 lp.2) s := by
  rw [addPages, List.zip_map_left, List.foldl_map]
  rfl

theorem mergeRound_congr (hlabels : ds.map Descriptor.label = ds'.map Descriptor.label)
    (pages : List SearchPage) : s.mergeRound ds pages = s.mergeRound ds' pages := by
  have hlength : ds.length = ds'.length := by
    simpa only [List.length_map] using congrArg List.length hlabels
  rw [mergeRound, mergeRound, addPages_zip, addPages_zip, hlabels, hlength]

end ResultSet

namespace SearchBackend

variable {σ : Type} {backend : SearchBackend σ} {ds ds' : List Descriptor}

theorem execute_congr (hlabels : ds.map Descriptor.label = ds'.map Descriptor.label)
    (hanswers : ∀ w, backend.search ds w = backend.search ds' w) (pageSize maxResults : UInt32) :
    backend.execute ds pageSize maxResults = backend.execute ds' pageSize maxResults := by
  have hempty : ds.isEmpty = ds'.isEmpty := by
    simpa only [List.isEmpty_map] using congrArg List.isEmpty hlabels
  have hround (s : ResultSet) (w : Window) : backend.runRound ds s w = backend.runRound ds' s w := by
    simp only [runRound, hanswers, ResultSet.mergeRound_congr _ hlabels]
  have hrounds (s : ResultSet) (ws : List Window) :
      backend.runRounds ds s ws = backend.runRounds ds' s ws := by
    induction ws generalizing s with
    | nil => rfl
    | cons w ws ih => simp only [runRounds, hround, ih]
  simp only [execute, hempty, hround, runFrom_eq_runRounds, hrounds]

end SearchBackend

/-- Runs differ in documents only when the answers do. -/
theorem DuplicateService.bare_run_congr {σ : Type} (s : DuplicateService σ) {ds ds' : List Descriptor}
    (hlabels : ds.map Descriptor.label = ds'.map Descriptor.label)
    (hanswers : ∀ w, s.backend.bare.search ds w = s.backend.bare.search ds' w)
    (base ruleCode : Option String) (maxResults : UInt32) :
    ResultSet.bare <$> s.run ds base ruleCode maxResults =
      ResultSet.bare <$> s.run ds' base ruleCode maxResults := by
  rw [← s.run_bare, ← s.run_bare, run, run, SearchBackend.execute_congr hlabels hanswers]

/-! ### Engines that project -/

namespace SearchClient

variable {σ : Type} (c : SearchClient) (transport : Transport σ)
  (whole : List Json → Window → StateM σ (Except TransportError Json))

theorem replyJson_of_read? {r : HttpReply} {v : Json} (hstatus : r.status < 400)
    (hread : Json.read? r.body = some v) : replyJson r = .ok v := by
  rw [replyJson, if_neg (by omega), hread]

/-- The engine behind a transport has replies with whole documents to the queries of a batch, and what
comes back is such a reply in which each document is cut down to what its search asks for. -/
def Projects (ds : List Descriptor) : Prop :=
  ∀ w, (fun answer => answer >>= replyJson) <$> transport.send (c.request ds w) =
    (fun reply => reply.map (Reply.project (ds.map fun d => d.search w c.identityKeyField))) <$>
      whole (ds.map Descriptor.query) w

/-- The pages that the client reads from a reply. -/
def readReply (expected : ℕ) (reply : Except TransportError Json) :
    Except ClientError (List SearchPage) := do
  let v ← reply.mapError ClientError.transport
  (Reply.pages v expected c.identityKeyField).mapError fun e => .invalidResponse e.message

/-- The pages that the client reads from a reply, without documents. -/
def bareAnswer (expected : ℕ) (reply : Except TransportError Json) :
    Except BackendError (List SearchPage) :=
  ((c.readReply expected reply).mapError ClientError.toBackend).map (List.map SearchPage.bare)

/-- Without documents a projected reply says what the whole one does. -/
theorem bareAnswer_project (ds : List Descriptor) (w : Window) (expected : ℕ)
    (reply : Except TransportError Json) :
    c.bareAnswer expected
        (reply.map (Reply.project (ds.map fun d => d.search w c.identityKeyField))) =
      c.bareAnswer expected reply := by
  cases reply with
  | error e => rfl
  | ok v =>
      have hread (v : Json) : c.readReply expected (.ok v) =
          (Reply.pages v expected c.identityKeyField).mapError
            fun e => .invalidResponse e.message := rfl
      rw [Except.map, bareAnswer, bareAnswer, hread, hread, Reply.pages_project]
      cases Reply.pages v expected c.identityKeyField with
      | error e => rfl
      | ok pages => exact congrArg Except.ok (Reply.map_bare_projections c.identityKeyField ds pages)

variable {c transport whole} {ds : List Descriptor}

theorem bare_search_of_projects (h : c.Projects transport whole ds) (hsome : ds ≠ []) (w : Window) :
    (c.backend transport).bare.search ds w =
      c.bareAnswer ds.length <$> whole (ds.map Descriptor.query) w := by
  have hds : ¬ ds.isEmpty = true := fun h => hsome (List.isEmpty_iff.mp h)
  have hsearch : (c.backend transport).bare.search ds w = c.bareAnswer ds.length <$>
      ((fun answer => answer >>= replyJson) <$> transport.send (c.request ds w)) := by
    unfold SearchBackend.bare backend search
    simp only [if_neg hds, map_eq_pure_bind, bind_assoc, pure_bind]
    rfl
  rw [hsearch, h w, Functor.map_map]
  simp only [bareAnswer_project]

/-- A filter changes the documents of an answer only. -/
theorem bare_search_unfiltered (h : c.Projects transport whole ds)
    (hunfiltered : c.Projects transport whole (ds.map Descriptor.unfiltered)) (w : Window) :
    (c.backend transport).bare.search (ds.map Descriptor.unfiltered) w =
      (c.backend transport).bare.search ds w := by
  by_cases hsome : ds = []
  · rw [hsome, List.map_nil]
  · have hqueries : (ds.map Descriptor.unfiltered).map Descriptor.query = ds.map Descriptor.query := by
      rw [List.map_map]
      rfl
    rw [bare_search_of_projects h hsome,
      bare_search_of_projects hunfiltered (mt List.map_eq_nil_iff.mp hsome), List.length_map, hqueries]

end SearchClient

/-! ### Requests with a filter -/

/-- The filter of a request is the projection of its searches and changes nothing else of them. -/
theorem QueryRequest.build_unfiltered (request : QueryRequest) (catalog : AttributeCatalog)
    (options : SynthesisOptions) (context : RequestContext) :
    request.build catalog options { context with sourceFields := [] } =
      (request.build catalog options context).map (List.map Descriptor.unfiltered) := by
  cases request with
  | basic o =>
      rw [build, build]
      split_ifs <;> rfl
  | complex rule o =>
      rw [build, build, Rule.generate, Rule.generate]
      cases rule.workingSets catalog o with
      | error e => rfl
      | ok sets =>
          show Except.ok _ = Except.ok _
          rw [List.map_map]
          rfl
  | near o =>
      rw [build, build]
      split_ifs <;> rfl
  | byIdentityKey key => rfl

/-! ### Main statement -/

namespace DuplicateService

variable {σ : Type} {c : SearchClient} {transport : Transport σ}
  {whole : List Json → Window → StateM σ (Except TransportError Json)}

/-- A filter never changes who a hit is.  A hit has the same identity key, or none, whether its document
comes back whole or as the search asks for; pages are read from both with the same identities and
totals, or refused alike.  A filtered request makes for the same searches but for their projections, so
over an engine that projects a run of them finds, drops and joins the same identities with the same
scores, or fails alike: its result differs in the documents only. -/
theorem filter_keeps_identities (s : DuplicateService σ) (ds : List Descriptor)
    (hbackend : s.backend = c.backend transport) (hfiltered : c.Projects transport whole ds)
    (hunfiltered : c.Projects transport whole (ds.map Descriptor.unfiltered)) :
    (∀ (d : Descriptor) w identityKeyField raw,
      (Reply.hit? identityKeyField (Reply.projectHit (d.search w identityKeyField) raw)).map
          (·.identityKey) =
        (Reply.hit? identityKeyField raw).map (·.identityKey)) ∧
    (∀ (ds : List Descriptor) w identityKeyField expected reply,
      (Reply.pages (Reply.project (ds.map fun d => d.search w identityKeyField) reply) expected
          identityKeyField).map (List.map SearchPage.bare) =
        (Reply.pages reply expected identityKeyField).map (List.map SearchPage.bare)) ∧
    (∀ (request : QueryRequest) catalog options context,
      request.build catalog options { context with sourceFields := [] } =
        (request.build catalog options context).map (List.map Descriptor.unfiltered)) ∧
    ∀ base ruleCode maxResults,
      ResultSet.bare <$> s.run ds base ruleCode maxResults =
        ResultSet.bare <$> s.run (ds.map Descriptor.unfiltered) base ruleCode maxResults := by
  refine ⟨?_, ?_, QueryRequest.build_unfiltered, fun base ruleCode maxResults => ?_⟩
  · intro d w identityKeyField raw
    rw [Reply.hit?_projectHit, Option.map_map]
    rfl
  · intro ds w identityKeyField expected reply
    rw [Reply.pages_project]
    cases Reply.pages reply expected identityKeyField with
    | error e => rfl
    | ok pages => exact congrArg Except.ok (Reply.map_bare_projections identityKeyField ds pages)
  · have hlabels : ds.map Descriptor.label = (ds.map Descriptor.unfiltered).map Descriptor.label := by
      rw [List.map_map]
      rfl
    refine bare_run_congr s hlabels (fun w => ?_) base ruleCode maxResults
    rw [hbackend]
    exact (SearchClient.bare_search_unfiltered hfiltered hunfiltered w).symm

end DuplicateService

/-! ### What a batch asks to see -/

/-- What stands before the projection of a search in the body of a batch. -/
def beforeSource : List Char := "\n\x7b\"_source\":".toList

namespace Descriptor

theorem write_search (d : Descriptor) (w : Window) (identityKeyField : String) :
    ∃ rest, '\n' :: (d.search w identityKeyField).write =
      beforeSource ++ (d.projection identityKeyField).write ++ ',' :: rest := by
  have hsearch : d.search w identityKeyField = .object (("_source", d.projection identityKeyField) ::
      [("from", .nat w.offset), ("query", d.query), ("size", .nat w.size),
        ("track_total_hits", .boolean true)]) := by
    simp (disch := decide) only [search, Json.obj, sortEntries, List.foldl, insertEntry_nil,
      insertEntry_cons_of_lt, insertEntry_cons_of_gt]
  have hbefore : beforeSource = '\n' :: '\x7b' :: (Json.quoted "_source" ++ [':']) := rfl
  refine ⟨Json.writeMembers [("from", .nat w.offset), ("query", d.query), ("size", .nat w.size),
    ("track_total_hits", .boolean true)] ++ ['\x7d'], ?_⟩
  rw [hsearch, hbefore, Json.write, Json.writeMembers, Json.writeMember]
  simp

theorem nesting_projection_le (d : Descriptor) (identityKeyField : String) :
    (d.projection identityKeyField).nesting ≤ Json.maxDepth := by
  have hstrings (texts : List String) : (Json.strings texts).nesting ≤ Json.maxDepth := by
    have hitems : Json.nestingOfItems (texts.map .string) ≤ 0 :=
      Json.nestingOfItems_le_iff.mpr (List.forall_mem_map.mpr fun _ _ => Nat.le_refl 0)
    rw [Json.strings, Json.nesting]
    unfold Json.maxDepth
    omega
  unfold projection
  split_ifs
  · exact Nat.zero_le _
  · exact hstrings _
  · exact hstrings _

end Descriptor

/-- What a batch with one search asks to see of the documents. -/
def askedSource (body : String) : Json :=
  let asked := (body.toList.dropWhile (· ≠ '\n')).drop beforeSource.length
  ((Json.readValue Json.maxDepth asked).map Prod.fst).getD .null

theorem askedSource_batchBody (index : String) (d : Descriptor) (w : Window)
    (identityKeyField : String) :
    askedSource (batchBody index [d] w identityKeyField) = d.projection identityKeyField := by
  have hheader : ∀ c ∈ (Json.obj [("index", .string index)]).write, decide (c ≠ '\n') = true := by
    intro c hc
    have hplain : Json.Plain (Json.obj [("index", .string index)]) := .obj_singleton (.string index)
    have hline := Json.not_mem_text hplain
    rw [Json.text, String.toList_ofList] at hline
    exact decide_eq_true fun heq => hline (heq ▸ hc)
  obtain ⟨rest, hsearch⟩ := d.write_search w identityKeyField
  have hbody : (batchBody index [d] w identityKeyField).toList.dropWhile (· ≠ '\n') =
      beforeSource ++ ((d.projection identityKeyField).write ++ ',' :: (rest ++ ['\n'])) := by
    rw [batchBody, String.toList_ofList, List.flatMap_singleton, List.append_assoc,
      List.dropWhile_append_of_pos hheader, List.cons_append,
      List.dropWhile_cons_of_neg (by decide), ← List.cons_append, hsearch, List.append_assoc,
      List.append_assoc, List.cons_append]
  have hread := Json.reads_write (d.plain_projection identityKeyField) Json.maxDepth
    (',' :: (rest ++ ['\n'])) rfl
  rw [if_pos (d.nesting_projection_le identityKeyField)] at hread
  rw [askedSource, hbody, List.drop_left, hread]
  rfl

namespace Json

theorem Plain.projectedBy {document : Json} (h : document.Plain) (source : Json) :
    (source.projectedBy document).Plain := by
  unfold Json.projectedBy
  split
  · cases h with
    | object hnames hmembers =>
        exact .object (List.Pairwise.filter _ hnames)
          fun m hm => hmembers m (List.mem_of_mem_filter hm)
    | _ => constructor <;> assumption
  · exact h

theorem nesting_projectedBy_le (source document : Json) :
    (source.projectedBy document).nesting ≤ document.nesting := by
  unfold projectedBy
  split
  · cases document with
    | object members =>
        refine Nat.succ_le_succ (nestingOfMembers_le_iff.mpr fun m hm => ?_)
        exact nestingOfMembers_le_iff.mp le_rfl m (List.mem_of_mem_filter hm)
    | _ => exact le_rfl
  · exact le_rfl

end Json

/-! ### Two stored documents -/

namespace DuplicateService

def firstNames : Descriptor :=
  { must := [.fieldPresent "login"], sourceFields := ["firstName"] }

/-- A stored document with the key of the base identity. -/
def storedJohn : Json :=
  .object [("birthDate", .string "1970"), ("firstName", .string "john"),
    ("identity_key", .string "BASE")]

/-- A stored document without a key of its own. -/
def storedJane : Json := .object [("birthDate", .string "1971"), ("firstName", .string "jane")]

/-- The reply of an engine that finds two documents. -/
def storedReply (document document' : Json) : Json :=
  .object [("responses", .array [.object [("hits", .object [
    ("hits", .array [
      .object [("_id", .string "doc-17"), ("_source", document)],
      .object [("_id", .string "doc-18"), ("_source", document')]]),
    ("total", .integer 2)])]])]

/-- A transport to an engine with the two documents, which it cuts down to what is asked for. -/
def storedTransport : Transport Unit where
  send request :=
    let asked := askedSource request.body
    pure (.ok ⟨200, (storedReply (asked.projectedBy storedJohn) (asked.projectedBy storedJane)).text,
      ""⟩)

def storedClient : SearchClient where
  url := "http://127.0.0.1:9200/_msearch"
  index := "identities"
  identityKeyField := "identity_key"
  headers := ∅

theorem plain_storedReply {document document' : Json} (h : document.Plain) (h' : document'.Plain) :
    (storedReply document document').Plain := by
  have hone {name : String} {v : Json} (hv : v.Plain) : Json.Plain (.object [(name, v)]) :=
    .object (List.pairwise_singleton _ _) (List.forall_mem_singleton.mpr hv)
  have htwo {name name' : String} {v v' : Json} (hnames : name < name') (hv : v.Plain)
      (hv' : v'.Plain) : Json.Plain (.object [(name, v), (name', v')]) :=
    .object (List.pairwise_pair.mpr hnames)
      (List.forall_mem_cons.mpr ⟨hv, List.forall_mem_singleton.mpr hv'⟩)
  have hhits : Json.Plain (.array [.object [("_id", .string "doc-17"), ("_source", document)],
      .object [("_id", .string "doc-18"), ("_source", document')]]) :=
    .array (List.forall_mem_cons.mpr ⟨htwo (by decide) (.string _) h,
      List.forall_mem_singleton.mpr (htwo (by decide) (.string _) h')⟩)
  exact hone (.array (List.forall_mem_singleton.mpr
    (hone (htwo (by decide) hhits (.integer (by decide) (by decide))))))

theorem read?_storedReply {document document' : Json} (h : document.Plain) (h' : document'.Plain)
    (hnesting : document.nesting ≤ 1) (hnesting' : document'.nesting ≤ 1) :
    Json.read? (storedReply document document').text = some (storedReply document document') := by
  have hdepth : (storedReply document document').nesting ≤ Json.maxDepth := by
    simp only [storedReply, Json.nesting, Json.nestingOfItems, Json.nestingOfMembers, Json.maxDepth]
    omega
  rw [Json.read?, Json.readWithin?_text (plain_storedReply h h'), if_pos hdepth]

theorem project_storedReply (d : Descriptor) (w : Window) (document document' : Json) :
    Reply.project [d.search w "identity_key"] (storedReply document document') =
      storedReply ((d.projection "identity_key").projectedBy document)
        ((d.projection "identity_key").projectedBy document') := by
  simp [Reply.project, Reply.projectResponse, Reply.projectHit_search, storedReply, applyEach,
    Json.mapMember, Json.mapItems]

theorem plain_storedJohn : storedJohn.Plain := by
  have hkeys : KeysIncrease [("birthDate", Json.string "1970"), ("firstName", .string "john"),
      ("identity_key", .string "BASE")] := by
    unfold KeysIncrease
    decide
  exact .object hkeys (by simp [Json.Plain.string])

theorem plain_storedJane : storedJane.Plain := by
  have hkeys : KeysIncrease [("birthDate", Json.string "1971"), ("firstName", .string "jane")] := by
    unfold KeysIncrease
    decide
  exact .object hkeys (by simp [Json.Plain.string])

/-- What comes back for a search is cut down to what it asks for. -/
theorem send_storedTransport (d : Descriptor) (w : Window) :
    storedTransport.send (storedClient.request [d] w) = pure (.ok ⟨200,
      (storedReply ((d.projection "identity_key").projectedBy storedJohn)
        ((d.projection "identity_key").projectedBy storedJane)).text, ""⟩) := by
  have hasked : askedSource (storedClient.request [d] w).body = d.projection "identity_key" :=
    askedSource_batchBody "identities" d w "identity_key"
  simp only [storedTransport, hasked]

theorem projects_stored (d : Descriptor) :
    storedClient.Projects storedTransport (fun _ _ => pure (.ok (storedReply storedJohn storedJane)))
      [d] := by
  intro w
  have hreply (r : HttpReply) : ((.ok r : Except TransportError HttpReply) >>=
      SearchClient.replyJson) = SearchClient.replyJson r := rfl
  have hfield : storedClient.identityKeyField = "identity_key" := rfl
  have hnesting : storedJohn.nesting = 1 ∧ storedJane.nesting = 1 := ⟨rfl, rfl⟩
  rw [send_storedTransport, map_pure, map_pure, hreply, Except.map, List.map_singleton, hfield,
    project_storedReply]
  generalize d.projection "identity_key" = source
  have hread := read?_storedReply (plain_storedJohn.projectedBy source)
    (plain_storedJane.projectedBy source)
    (hnesting.1 ▸ Json.nesting_projectedBy_le source storedJohn)
    (hnesting.2 ▸ Json.nesting_projectedBy_le source storedJane)
  generalize storedReply (source.projectedBy storedJohn) (source.projectedBy storedJane) = reply
    at hread ⊢
  have hstatus : 200 < 400 := by decide
  have hjson : SearchClient.replyJson ⟨200, reply.text, ""⟩ = .ok reply :=
    SearchClient.replyJson_of_read? hstatus hread
  rw [hjson]

def storedService : DuplicateService Unit :=
  ofParts {} CatalogTable.person.catalog .empty (storedClient.backend storedTransport) (.empty Unit)

/-- A search for the first names leaves the birth dates out of the documents that come back, and nothing
else of its result changes. -/
theorem filter_keeps_identities_stored :
    storedTransport.send (storedClient.request [firstNames] ⟨0, 10⟩) = pure (.ok ⟨200,
      (storedReply (.object [("firstName", .string "john"), ("identity_key", .string "BASE")])
        (.object [("firstName", .string "jane")])).text, ""⟩) ∧
    storedTransport.send (storedClient.request [firstNames.unfiltered] ⟨0, 10⟩) =
      pure (.ok ⟨200, (storedReply storedJohn storedJane).text, ""⟩) ∧
    ResultSet.bare <$> storedService.run [firstNames] (some "BASE") none 0 =
      ResultSet.bare <$> storedService.run [firstNames.unfiltered] (some "BASE") none 0 := by
  have hlisted : firstNames.projection "identity_key" = .strings ["firstName", "identity_key"] := by
    simp [Descriptor.projection, firstNames]
  have hjohn : (Json.strings ["firstName", "identity_key"]).projectedBy storedJohn =
      .object [("firstName", .string "john"), ("identity_key", .string "BASE")] := by
    simp [Json.projectedBy_strings, Json.restrict, storedJohn]
  have hjane : (Json.strings ["firstName", "identity_key"]).projectedBy storedJane =
      .object [("firstName", .string "jane")] := by
    simp [Json.projectedBy_strings, Json.restrict, storedJane]
  have hkeeps := filter_keeps_identities storedService [firstNames] rfl (projects_stored firstNames)
    (projects_stored firstNames.unfiltered)
  refine ⟨?_, send_storedTransport firstNames.unfiltered _, hkeeps.2.2.2 (some "BASE") none 0⟩
  rw [send_storedTransport, hlisted, hjohn, hjane]

end DuplicateService
end Lookalike
