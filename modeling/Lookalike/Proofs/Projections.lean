import Lookalike.Engine.Query
import Lookalike.Engine.Reply
import Lookalike.Proofs.BareResults

/-! # Projections and identities

A search may ask for a few fields of the stored documents only.  `Reply.project` is what the engine then
replies: the reply with whole documents, in which each document is cut down to the fields that the search
lists.  Every projection lists the field of the identity key, so reading a reply and cutting down its
documents go in either order: the hits, and the identities that they are filed under, are the same.

Main statement: `Reply.pages_project`. -/

namespace Lookalike

/-! ### Look-ups in changed entries -/

section Entries

variable {α : Type}

theorem lookup_sortEntries (es : List (String × α)) (k : String) :
    (sortEntries es).lookup k = es.reverse.lookup k := by
  have hfold : ∀ acc : List (String × α),
      (es.foldl (fun sorted e => insertEntry e.1 e.2 sorted) acc).lookup k =
        (es.reverse.lookup k).or (acc.lookup k) := by
    induction es with
    | nil => intro acc; rfl
    | cons e es ih =>
        intro acc
        rw [List.foldl_cons, ih, lookup_insertEntry, List.reverse_cons, List.lookup_append]
        cases es.reverse.lookup k with
        | some v => rfl
        | none => by_cases hk : k = e.1 <;> simp [lookup_cons_ite, hk]
  rw [sortEntries, hfold, List.lookup_nil, Option.or_none]

theorem lookup_filter_key (p : String → Bool) (es : List (String × α)) (k : String) :
    (es.filter fun e => p e.1).lookup k = if p k then es.lookup k else none := by
  induction es with
  | nil => simp
  | cons e es ih =>
      rw [List.filter_cons]
      by_cases hk : k = e.1
      · cases hp : p e.1 with
        | true => simp only [if_true, lookup_cons_ite, hk, hp]
        | false =>
            rw [if_neg Bool.false_ne_true, ih, hk, hp, if_neg Bool.false_ne_true,
              if_neg Bool.false_ne_true]
      · cases hp : p e.1 with
        | true => rw [if_pos rfl, lookup_cons_ite, lookup_cons_ite, if_neg hk, if_neg hk, ih]
        | false => rw [if_neg Bool.false_ne_true, lookup_cons_ite, if_neg hk, ih]

theorem lookup_map_named (name : String) (f : α → α) (es : List (String × α)) (k : String) :
    (es.map fun e => if e.1 = name then (e.1, f e.2) else e).lookup k =
      if k = name then (es.lookup k).map f else es.lookup k := by
  induction es with
  | nil => simp
  | cons e es ih =>
      have hfirst : (if e.1 = name then (e.1, f e.2) else e).1 = e.1 := by
        split_ifs <;> rfl
      rw [List.map_cons, lookup_cons_ite, lookup_cons_ite, hfirst, ih]
      by_cases hk : k = e.1
      · rw [if_pos hk, if_pos hk, hk]
        split_ifs <;> rfl
      · rw [if_neg hk, if_neg hk]

end Entries

/-! ### Changed values -/

namespace Json

theorem member?_obj (members : List (String × Json)) (name : String) :
    (obj members).member? name = members.reverse.lookup name :=
  lookup_sortEntries members name

def mapMember (name : String) (f : Json → Json) : Json → Json
  | object members => object (members.map fun m => if m.1 = name then (m.1, f m.2) else m)
  | v => v

def mapItems (f : List Json → List Json) : Json → Json
  | array items => array (f items)
  | v => v

/-- The object with the listed members only. -/
def restrict (fields : List String) : Json → Json
  | object members => object (members.filter fun m => fields.contains m.1)
  | v => v

theorem member?_mapMember (v : Json) (name other : String) (f : Json → Json) :
    (v.mapMember name f).member? other =
      if other = name then (v.member? other).map f else v.member? other := by
  cases v with
  | object members => exact lookup_map_named name f members other
  | _ => simp [mapMember, member?]

theorem items?_mapItems (v : Json) (f : List Json → List Json) :
    (v.mapItems f).items? = v.items?.map f := by
  cases v <;> rfl

theorem member?_restrict (v : Json) (fields : List String) (name : String) :
    (v.restrict fields).member? name = if fields.contains name then v.member? name else none := by
  cases v with
  | object members => exact lookup_filter_key fields.contains members name
  | _ => simp [restrict, member?]

/-- What is returned of a stored document: the listed members if a search lists some, and the whole
document if it asks for everything. -/
def projectedBy (source document : Json) : Json :=
  match source with
  | array fields => document.restrict (fields.filterMap string?)
  | _ => document

theorem projectedBy_strings (fields : List String) (document : Json) :
    (strings fields).projectedBy document = document.restrict fields := by
  have hfields : (fields.map string).filterMap string? = fields := by
    rw [List.filterMap_map]
    exact List.filterMap_some
  rw [strings, projectedBy, hfields]

theorem projectedBy_null (source : Json) : source.projectedBy null = null := by
  cases source <;> rfl

end Json

/-! ### Projections keep the identity key -/

theorem Descriptor.source_search (d : Descriptor) (w : Window) (identityKeyField : String) :
    (d.search w identityKeyField).member? "_source" = some (d.projection identityKeyField) := by
  rw [search, Json.member?_obj]
  rfl

theorem Descriptor.member?_projectedBy_projection (d : Descriptor) (identityKeyField : String)
    (document : Json) :
    ((d.projection identityKeyField).projectedBy document).member? identityKeyField =
      document.member? identityKeyField := by
  unfold projection
  split_ifs with hnone hlisted
  · rfl
  · rw [Json.projectedBy_strings, Json.member?_restrict, if_pos hlisted]
  · rw [Json.projectedBy_strings, Json.member?_restrict, if_pos (by simp)]

/-! ### Replies with projected documents -/

/-- Applies each of some functions to the member of a list at its place. -/
def applyEach {α : Type} : List (α → α) → List α → List α
  | f :: fs, x :: xs => f x :: applyEach fs xs
  | _, xs => xs

section applyEach

variable {α β : Type}

theorem applyEach_nil (xs : List α) : applyEach [] xs = xs := by
  cases xs <;> rfl

theorem length_applyEach (fs : List (α → α)) (xs : List α) :
    (applyEach fs xs).length = xs.length := by
  induction fs generalizing xs with
  | nil => rw [applyEach_nil]
  | cons f fs ih =>
      cases xs with
      | nil => rfl
      | cons x xs => rw [applyEach, List.length_cons, List.length_cons, ih]

/-- Functions that keep what is looked at keep it at every place. -/
theorem map_applyEach {fs : List (α → α)} {g : α → β} (h : ∀ f ∈ fs, ∀ x, g (f x) = g x)
    (xs : List α) : (applyEach fs xs).map g = xs.map g := by
  induction fs generalizing xs with
  | nil => rw [applyEach_nil]
  | cons f fs ih =>
      obtain ⟨hf, hfs⟩ := List.forall_mem_cons.mp h
      cases xs with
      | nil => rfl
      | cons x xs => rw [applyEach, List.map_cons, List.map_cons, hf, ih hfs]

end applyEach

namespace Reply

/-- The hit that is returned for a search: its document is cut down to what the search asks for. -/
def projectHit (search raw : Json) : Json :=
  raw.mapMember "_source" ((search.member? "_source").getD .null).projectedBy

/-- The response to a search, with the documents cut down to what it asks for. -/
def projectResponse (search response : Json) : Json :=
  response.mapMember "hits" (Json.mapMember "hits" (Json.mapItems (List.map (projectHit search))))

/-- The reply to a batch, with the documents of each response cut down to what its search asks for. -/
def project (searches : List Json) (reply : Json) : Json :=
  reply.mapMember "responses" (Json.mapItems (applyEach (searches.map projectResponse)))

section Read

variable (d : Descriptor) (w : Window) (identityKeyField : String)

theorem projectHit_search (raw : Json) : projectHit (d.search w identityKeyField) raw =
    raw.mapMember "_source" (d.projection identityKeyField).projectedBy := by
  rw [projectHit, Descriptor.source_search, Option.getD_some]

theorem hit?_projectHit (raw : Json) :
    hit? identityKeyField (projectHit (d.search w identityKeyField) raw) =
      (hit? identityKeyField raw).map (·.mapDocument (d.projection identityKeyField).projectedBy) := by
  have hother (name : String) (h : name ≠ "_source") :
      (projectHit (d.search w identityKeyField) raw).member? name = raw.member? name := by
    rw [projectHit_search, Json.member?_mapMember, if_neg h]
  have hdocument : ((projectHit (d.search w identityKeyField) raw).member? "_source").getD .null =
      (d.projection identityKeyField).projectedBy ((raw.member? "_source").getD .null) := by
    rw [projectHit_search, Json.member?_mapMember, if_pos rfl]
    cases raw.member? "_source" with
    | none => exact (Json.projectedBy_null _).symm
    | some document => rfl
  unfold hit?
  simp only [hdocument, d.member?_projectedBy_projection, hother "_id" (by decide),
    hother "_score" (by decide), Option.map_map]
  rfl

theorem total?_mapMember_hits (f : Json → Json) (hits : Json) :
    total? (hits.mapMember "hits" f) = total? hits := by
  rw [total?, total?, Json.member?_mapMember, if_neg (by decide)]

theorem page_projectResponse (position : Nat) (response : Json) :
    page identityKeyField position (projectResponse (d.search w identityKeyField) response) =
      (page identityKeyField position response).map
        (·.mapDocuments (d.projection identityKeyField).projectedBy) := by
  have hread : hit? identityKeyField ∘ projectHit (d.search w identityKeyField) = fun raw =>
      (hit? identityKeyField raw).map (·.mapDocument (d.projection identityKeyField).projectedBy) :=
    funext (hit?_projectHit d w identityKeyField)
  unfold page
  rw [projectResponse, Json.member?_mapMember, if_neg (by decide), Json.member?_mapMember, if_pos rfl]
  cases response.member? "error" with
  | some error => rfl
  | none =>
      cases response.member? "hits" with
      | none => rfl
      | some hits =>
          simp only [Option.map_some, total?_mapMember_hits]
          cases total? hits with
          | none => rfl
          | some total =>
              have hmax : (hits.mapMember "hits" (Json.mapItems (List.map
                  (projectHit (d.search w identityKeyField))))).member? "max_score" =
                  hits.member? "max_score" := by
                rw [Json.member?_mapMember, if_neg (by decide)]
              have hlisted : ((hits.mapMember "hits" (Json.mapItems (List.map
                  (projectHit (d.search w identityKeyField))))).member? "hits").bind Json.items? =
                  ((hits.member? "hits").bind Json.items?).map
                    (List.map (projectHit (d.search w identityKeyField))) := by
                rw [Json.member?_mapMember, if_pos rfl]
                cases hits.member? "hits" with
                | none => rfl
                | some listed => exact Json.items?_mapItems listed _
              simp only [hmax, hlisted, Except.map, SearchPage.mapDocuments]
              cases (hits.member? "hits").bind Json.items? with
              | none => rfl
              | some listed =>
                  simp only [Option.map_some, Option.getD_some, List.filterMap_map, hread,
                    List.map_filterMap]

end Read

section Batch

variable (w : Window) (identityKeyField : String)

/-- What the searches of a batch have done to the documents of their pages. -/
def projections (ds : List Descriptor) : List (SearchPage → SearchPage) :=
  ds.map fun d => SearchPage.mapDocuments (d.projection identityKeyField).projectedBy

theorem pagesFrom_project (ds : List Descriptor) (position : Nat) (responses : List Json) :
    pagesFrom identityKeyField position
        (applyEach (ds.map fun d => projectResponse (d.search w identityKeyField)) responses) =
      (pagesFrom identityKeyField position responses).map
        (applyEach (projections identityKeyField ds)) := by
  induction ds generalizing position responses with
  | nil =>
      have hnone : applyEach (projections identityKeyField []) = id := funext applyEach_nil
      rw [List.map_nil, applyEach_nil, hnone, Except.map_id, id]
  | cons d ds ih =>
      cases responses with
      | nil => rfl
      | cons response responses =>
          rw [List.map_cons, applyEach, pagesFrom, pagesFrom, page_projectResponse, ih]
          cases page identityKeyField position response with
          | error e => rfl
          | ok p =>
              cases pagesFrom identityKeyField (position + 1) responses with
              | error e => rfl
              | ok ps => rfl

/-- A reply is read alike with whole and with projected documents, up to the documents themselves. -/
theorem pages_project (ds : List Descriptor) (reply : Json) (expected : Nat) :
    pages (project (ds.map fun d => d.search w identityKeyField) reply) expected identityKeyField =
      (pages reply expected identityKeyField).map (applyEach (projections identityKeyField ds)) := by
  have hresponses : ((project (ds.map fun d => d.search w identityKeyField) reply).member?
      "responses").bind Json.items? = ((reply.member? "responses").bind Json.items?).map
        (applyEach (ds.map fun d => projectResponse (d.search w identityKeyField))) := by
    rw [project, Json.member?_mapMember, if_pos rfl, List.map_map]
    cases reply.member? "responses" with
    | none => rfl
    | some listed => exact Json.items?_mapItems listed _
  rw [pages, pages, hresponses]
  cases (reply.member? "responses").bind Json.items? with
  | none => rfl
  | some responses =>
      simp only [Option.map_some, length_applyEach]
      split_ifs
      · rfl
      · exact pagesFrom_project w identityKeyField ds 0 responses

theorem map_bare_projections (ds : List Descriptor) (pages : List SearchPage) :
    (applyEach (projections identityKeyField ds) pages).map SearchPage.bare =
      pages.map SearchPage.bare := by
  refine map_applyEach (fun f hf p => ?_) pages
  obtain ⟨d, -, rfl⟩ := List.mem_map.mp hf
  exact SearchPage.bare_mapDocuments _ p

end Batch

end Reply
end Lookalike
