import Lookalike.Proofs.AcceptedRules
import Mathlib.Algebra.BigOperators.Group.Multiset.Basic
import Mathlib.Algebra.Ring.Nat

/-! # How many searches a rule costs

Selections are counted by binomial coefficients.  For a group that can be used, the attributes that must
agree are selected among those observed that the group does not name, and the missing ones among what is
left of these; so the searches of a rule are counted group by group, although they are listed selection
by selection.

Main statement: `length_generate`. -/

namespace Lookalike

/-! ### Counting in lists -/

section Counting

variable {α β : Type}

theorem sum_map_sum_map (xs : List α) (ys : List β) (f : α → β → ℕ) :
    (xs.map fun x => (ys.map (f x)).sum).sum = (ys.map fun y => (xs.map (f · y)).sum).sum := by
  have h := Multiset.sum_map_sum_map (xs : Multiset α) (ys : Multiset β) (f := f)
  simpa only [Multiset.map_coe, Multiset.sum_coe] using h

theorem sum_map_ite_zero (p : α → Bool) (n : ℕ) (xs : List α) :
    (xs.map fun x => if p x = true then n else 0).sum = (xs.filter p).length * n := by
  induction xs with
  | nil => simp
  | cons x xs ih =>
      rw [List.map_cons, List.sum_cons, ih]
      cases hx : p x with
      | true => simp [hx, Nat.succ_mul, Nat.add_comm]
      | false => simp [hx]

theorem length_filterMap_flatMap {γ : Type} (xs : List α) (f : α → Option β) (g : β → List γ) :
    ((xs.filterMap f).flatMap g).length =
      (xs.map fun x => ((f x).map fun y => (g y).length).getD 0).sum := by
  induction xs with
  | nil => rfl
  | cons x xs ih =>
      cases h : f x with
      | none => simpa [h] using ih
      | some y => simpa [h] using ih

/-- Taking the members of a sub-list out of a list takes out as many, if their keys tell them apart. -/
theorem length_filter_not_mem {key : α → String} {xs ys : List α} (hsub : ys.Sublist xs)
    (hdistinct : (xs.map key).Nodup) :
    (xs.filter fun x => !(ys.map key).contains (key x)).length = xs.length - ys.length := by
  induction hsub with
  | slnil => rfl
  | @cons ys xs x hsub ih =>
      rw [List.map_cons, List.nodup_cons] at hdistinct
      have hx : (!(ys.map key).contains (key x)) = true := by
        simpa using mt (fun h => (hsub.map key).subset h) hdistinct.1
      have hle := hsub.length_le
      rw [List.filter_cons, if_pos hx, List.length_cons, List.length_cons, ih hdistinct.2]
      omega
  | @cons_cons ys xs x hsub ih =>
      rw [List.map_cons, List.nodup_cons] at hdistinct
      have hrest : (xs.filter fun y => !((x :: ys).map key).contains (key y)) =
          xs.filter fun y => !(ys.map key).contains (key y) := by
        refine List.filter_congr fun y hy => ?_
        have hne : key y ≠ key x := fun h => hdistinct.1 (h ▸ List.mem_map_of_mem hy)
        simp [hne]
      rw [List.filter_cons, if_neg (by simp), hrest, ih hdistinct.2]
      simp

end Counting

/-! ### Attributes outside a group -/

/-- Whether some keys name an attribute. -/
def isNamed (keys : List AttributeKey) (name : String) : Bool := (keys.map (·.name)).contains name

/-- The number of attributes that a rule checks and finds observed, and some keys name. -/
def Rule.observedAmong (r : Rule) (o : Observation) (keys : List AttributeKey) : ℕ :=
  ((r.presentAttributes o).filter fun key => isNamed keys key.name).length

/-- Whether some keys do not name an attribute. -/
def isOutside (keys : List AttributeKey) (w : WorkingAttribute) : Bool := !isNamed keys w.key

section Outside

variable {r : Rule} {catalog : AttributeCatalog} {o : Observation} {keys : List AttributeKey}

theorem observedAmong_nil (r : Rule) (o : Observation) : r.observedAmong o [] = 0 := by
  simp [Rule.observedAmong, isNamed]

/-- The attributes outside some keys are those observed less those that the keys name. -/
theorem length_outside (r : Rule) (o : Observation) (keys : List AttributeKey) :
    ((r.items o).filter (isOutside keys)).length =
      (r.presentAttributes o).length - r.observedAmong o keys := by
  have hitems : ((r.items o).filter (isOutside keys)).length =
      (r.presentAttributes o).countP fun key => !isNamed keys key.name := by
    have h := congrArg (List.countP fun name => !isNamed keys name) (map_key_items r o)
    rwa [List.countP_map, List.countP_map, List.countP_eq_length_filter] at h
  have htotal := List.length_eq_countP_add_countP (fun key : AttributeKey => isNamed keys key.name)
    (l := r.presentAttributes o)
  have hrest : ((r.presentAttributes o).countP fun key => decide ¬isNamed keys key.name = true) =
      (r.presentAttributes o).countP fun key => !isNamed keys key.name :=
    List.countP_congr fun key _ => by simp
  rw [hitems, Rule.observedAmong, ← List.countP_eq_length_filter, htotal, hrest]
  omega

theorem apart_iff_all_outside (keys : List AttributeKey) (ws : List WorkingAttribute) :
    Apart keys ws ↔ ws.all (isOutside keys) = true := by
  simp only [Apart, isOutside, isNamed, List.all_eq_true, Bool.not_eq_true', List.contains_eq_mem,
    decide_eq_false_iff_not, List.mem_map, not_exists, not_and]
  constructor
  · intro h w hw key hkey he
    exact h key hkey w hw he.symm
  · intro h key hkey w hw he
    exact h w hw key hkey he.symm

/-- What remains beside attributes that agree and a group is as much as is outside the group, less those
that agree. -/
theorem length_missingFrom (h : r.Accepted) {equal : List WorkingAttribute}
    (hequal : equal ∈ combinations (r.items o) r.nbEqualAttributes) (hapart : Apart keys equal) :
    (Rule.missingFrom (r.items o) (equal ++ keys.map (memberItem catalog o))).length =
      ((r.items o).filter (isOutside keys)).length - r.nbEqualAttributes := by
  obtain ⟨hsub, hlength⟩ := mem_combinations_iff.mp hequal
  have houtside : equal.filter (isOutside keys) = equal :=
    List.filter_eq_self.mpr (List.all_eq_true.mp ((apart_iff_all_outside keys equal).mp hapart))
  have hsub : equal.Sublist ((r.items o).filter (isOutside keys)) := houtside ▸ hsub.filter _
  have hdistinct : (((r.items o).filter (isOutside keys)).map (·.key)).Nodup :=
    (h.nodup_items o).sublist (List.filter_sublist.map _)
  have hkeys : (equal ++ keys.map (memberItem catalog o)).map (·.key) =
      equal.map (·.key) ++ keys.map (·.name) := by
    rw [List.map_append, List.map_map]
    exact congrArg _ (List.map_congr_left fun key _ => key_memberItem catalog o key)
  have hremaining : ((r.items o).filter fun w =>
        !((equal ++ keys.map (memberItem catalog o)).map (·.key)).contains w.key) =
      ((r.items o).filter (isOutside keys)).filter fun w => !(equal.map (·.key)).contains w.key := by
    rw [List.filter_filter, hkeys]
    refine List.filter_congr fun w _ => ?_
    simp [isOutside, isNamed]
  rw [Rule.missingFrom, List.length_map, hremaining, length_filter_not_mem hsub hdistinct, hlength]

end Outside

/-! ### Searches of one group -/

namespace Rule

/-- The number of searches that attributes which agree give with a group; none if they do not go
together. -/
def searchesWith (r : Rule) (catalog : AttributeCatalog) (o : Observation)
    (equal : List WorkingAttribute) (choice : Option TreatmentGroup) : ℕ :=
  if Usable catalog o (choiceKeys choice) ∧ Apart (choiceKeys choice) equal then
    (r.withMissing (r.items o) (equal ++ (choiceKeys choice).map (memberItem catalog o))).length
  else 0

/-- The number of searches that go with some keys. -/
def searchesBeside (r : Rule) (o : Observation) (keys : List AttributeKey) : ℕ :=
  let outside := (r.presentAttributes o).length - r.observedAmong o keys
  outside.choose r.nbEqualAttributes * (outside - r.nbEqualAttributes).choose r.nbMissingAttributes

end Rule

section Searches

variable {r : Rule} {catalog : AttributeCatalog} {o : Observation}

theorem length_withGroups (equal : List WorkingAttribute) :
    ((r.withGroups (r.usableGroups catalog o) equal).flatMap (r.withMissing (r.items o))).length =
      (r.groupChoices.map (r.searchesWith catalog o equal)).sum := by
  rw [withGroups_eq, length_filterMap_flatMap]
  refine congrArg List.sum (List.map_congr_left fun choice _ => ?_)
  unfold Rule.searchesWith
  split_ifs <;> rfl

/-- Those that agree are selected outside the group, and what is missing among the others there. -/
theorem searchesWith_of_usable (h : r.Accepted) {choice : Option TreatmentGroup}
    (husable : Usable catalog o (choiceKeys choice)) {equal : List WorkingAttribute}
    (hequal : equal ∈ combinations (r.items o) r.nbEqualAttributes) :
    r.searchesWith catalog o equal choice =
      if equal.all (isOutside (choiceKeys choice)) = true then
        (((r.items o).filter (isOutside (choiceKeys choice))).length - r.nbEqualAttributes).choose
          r.nbMissingAttributes
      else 0 := by
  rw [Rule.searchesWith]
  by_cases hapart : Apart (choiceKeys choice) equal
  · rw [if_pos ⟨husable, hapart⟩, if_pos ((apart_iff_all_outside _ equal).mp hapart),
      Rule.withMissing, List.length_map, length_combinations, length_missingFrom h hequal hapart]
  · rw [if_neg fun hboth => hapart hboth.2, if_neg (mt (apart_iff_all_outside _ equal).mpr hapart)]

theorem sum_searchesWith (h : r.Accepted) (choice : Option TreatmentGroup) :
    ((combinations (r.items o) r.nbEqualAttributes).map
        (r.searchesWith catalog o · choice)).sum =
      if Usable catalog o (choiceKeys choice) then r.searchesBeside o (choiceKeys choice) else 0 := by
  by_cases husable : Usable catalog o (choiceKeys choice)
  · rw [if_pos husable, List.map_congr_left fun equal hequal => searchesWith_of_usable h husable hequal,
      sum_map_ite_zero, filter_all_combinations, length_combinations, length_outside]
    rfl
  · simp [Rule.searchesWith, husable]

/-- The sets that a rule searches for, the empty one among them, are counted group by group. -/
theorem length_allVariants (h : r.Accepted) :
    (allVariants r catalog o).length =
      ((r.groupChoices.filter fun choice => Usable catalog o (choiceKeys choice)).map fun choice =>
        r.searchesBeside o (choiceKeys choice)).sum := by
  have hsets := congrArg List.length (sets_eq_map_workingSet r catalog o)
  rw [List.length_map] at hsets
  calc (allVariants r catalog o).length
      = (((combinations (r.items o) r.nbEqualAttributes).flatMap
          (r.withGroups (r.usableGroups catalog o))).flatMap (r.withMissing (r.items o))).length :=
        hsets.symm
    _ = ((combinations (r.items o) r.nbEqualAttributes).map fun equal =>
          (r.groupChoices.map (r.searchesWith catalog o equal)).sum).sum := by
        rw [List.flatMap_assoc, List.length_flatMap]
        exact congrArg List.sum (List.map_congr_left fun equal _ => length_withGroups equal)
    _ = (r.groupChoices.map fun choice => ((combinations (r.items o) r.nbEqualAttributes).map
          (r.searchesWith catalog o · choice)).sum).sum :=
        sum_map_sum_map _ _ (r.searchesWith catalog o)
    _ = (r.groupChoices.map fun choice =>
          if Usable catalog o (choiceKeys choice) then r.searchesBeside o (choiceKeys choice)
          else 0).sum :=
        congrArg List.sum (List.map_congr_left fun choice _ => sum_searchesWith h choice)
    _ = _ := by
        rw [List.sum_map_ite]
        simp

/-! ### Searches of nothing -/

theorem groupKeys_eq_nil_iff (h : r.Accepted) {v : Variant} (hgroup : v.group < r.groupChoices.length) :
    v.groupKeys r = [] ↔ r.treatmentGroups = [] := by
  rcases Variant.groupKeys_cases hgroup with ⟨hkeys, hnone⟩ | ⟨g, hg, hkeys⟩
  · exact iff_of_true hkeys hnone
  · rw [hkeys]
    exact iff_of_false (h.members_ne_nil g hg) (List.ne_nil_of_mem hg)

/-- A rule searches for nothing at all only when it asks for nothing. -/
theorem workingSet_eq_nil_iff_of_mem (h : r.Accepted) {v : Variant}
    (hv : v ∈ allVariants r catalog o) :
    v.workingSet r catalog o = [] ↔
      r.treatmentGroups = [] ∧ r.nbEqualAttributes = 0 ∧ r.nbMissingAttributes = 0 := by
  obtain ⟨hequal, hgroup, hmissing⟩ := (mem_allVariants r catalog o).mp hv
  have hequal := mem_combinations_range.mp hequal
  obtain ⟨hlength, -, hfree⟩ :=
    (mem_combinations_of_increasing (pairwise_freePlaces r o _)).mp hmissing
  have hbound : v.group < r.groupChoices.length := List.mem_range.mp (List.mem_filter.mp hgroup).1
  rw [workingSet_eq_nil_iff r catalog o hequal.bounded fun j hj => ((mem_freePlaces r o).mp (hfree j hj)).1,
    groupKeys_eq_nil_iff h hbound, ← List.length_eq_zero_iff, hequal.length,
    ← List.length_eq_zero_iff (l := v.missing), hlength]
  exact and_left_comm

theorem length_variants (h : r.Accepted) :
    (variants r catalog o).length =
      if r.treatmentGroups = [] ∧ r.nbEqualAttributes = 0 ∧ r.nbMissingAttributes = 0 then 0
      else (allVariants r catalog o).length := by
  rw [variants]
  split_ifs with hnothing
  · rw [List.length_eq_zero_iff, List.filter_eq_nil_iff]
    intro v hv
    simp [(workingSet_eq_nil_iff_of_mem h hv).mpr hnothing]
  · refine congrArg List.length (List.filter_eq_self.mpr fun v hv => ?_)
    simpa using mt (workingSet_eq_nil_iff_of_mem h hv).mp hnothing

end Searches

/-! ### Searches of a rule -/

/-- A rule that is accepted and applies can be searched for in as many ways as follows, where `p` of its
checked attributes are observed, `e` must agree and `m` must be missing.  Without treatment groups there
are `C(p, e) * C(p - e, m)` searches, but none if `e` and `m` are zero.  With groups, each that can be
used gives `C(p - q, e) * C(p - q - e, m)`, where `q` of the `p` attributes are named by the group. -/
theorem length_generate {c : RuleConfig} {r : Rule} (hbuilt : Rule.ofConfig c = .ok r)
    (catalog : AttributeCatalog) (options : SynthesisOptions) (o : Observation)
    (context : RequestContext) (happ : r.canApply o = true) :
    let p := (r.presentAttributes o).length
    let e := c.nbEqualAttributes
    let m := c.nbMissingAttributes
    ∃ ds, r.generate catalog options o context = .ok ds ∧ ds.length =
      if r.treatmentGroups = [] then
        if e = 0 ∧ m = 0 then 0 else p.choose e * (p - e).choose m
      else
        ((r.treatmentGroups.filter fun g => Usable catalog o g.attributes).map fun g =>
          let q := r.observedAmong o g.attributes
          (p - q).choose e * (p - q - e).choose m).sum := by
  intro p e m
  have haccepted := Rule.accepted_of_ofConfig hbuilt
  have hof := Rule.isOf_of_ofConfig hbuilt
  have happ := (canApply_iff r o).mp happ
  refine ⟨_, generate_of_le r catalog options o context happ (haccepted.equal_le_items happ), ?_⟩
  rw [List.length_mapIdx, length_variants haccepted, length_allVariants haccepted]
  by_cases hnone : r.treatmentGroups = []
  · have hbeside : r.searchesBeside o [] = p.choose e * (p - e).choose m := by
      simp [Rule.searchesBeside, observedAmong_nil, hof.nbEqualAttributes, hof.nbMissingAttributes,
        p, e, m]
    have hchoices : r.groupChoices.filter (fun choice => Usable catalog o (choiceKeys choice)) =
        [none] := by
      simp [Rule.groupChoices, hnone, choiceKeys, Usable]
    rw [hchoices, List.map_singleton, List.sum_singleton, choiceKeys, hbeside, if_pos hnone,
      hof.nbEqualAttributes, hof.nbMissingAttributes]
    simp [hnone, e, m]
  · rw [if_neg fun h => hnone h.1, if_neg hnone, Rule.groupChoices, if_neg hnone, List.filter_map,
      List.map_map]
    refine congrArg List.sum (List.map_congr_left fun g _ => ?_)
    show r.searchesBeside o g.attributes = _
    rw [Rule.searchesBeside, hof.nbEqualAttributes, hof.nbMissingAttributes]

/-- A configured rule with a group that names a checked attribute twice, one that names none and one that
needs a value. -/
def groupedConfig : RuleConfig where
  code := "G"
  priority := 1
  nbFilledAttributes := 2
  nbEqualAttributes := 1
  nbMissingAttributes := 1
  checkedAttributes := [{ key := "birthDate" }, { key := "email" }, { key := "familyName" }]
  treatmentGroups := [
    { name := "otherMail", attributes := [
        { key := "email", treatment := some "different" },
        { key := "email", treatment := some " Strict" }] },
    { name := "noLogin", attributes := [{ key := "login", treatment := some "absent" }] },
    { name := "login", attributes := [{ key := "login" }] }]

/-- The rule that is built from it. -/
def groupedRule : Rule where
  code := "G"
  priority := 1
  nbFilledAttributes := 2
  nbEqualAttributes := 1
  nbMissingAttributes := 1
  checkedAttributes := [{ name := "birthDate" }, { name := "email" }, { name := "familyName" }]
  treatmentGroups := [
    { name := "otherMail", attributes := [⟨"email", some .different⟩, ⟨"email", some .strict⟩] },
    { name := "noLogin", attributes := [⟨"login", some .absent⟩] },
    { name := "login", attributes := [⟨"login", none⟩] }]

/-- All that the rule checks, with values. -/
def groupedObservation : Observation :=
  (((Observation.empty.push (.resolve CatalogTable.person.catalog "birthDate" "1970")).push
    (.resolve CatalogTable.person.catalog "email" "a@b")).push
    (.resolve CatalogTable.person.catalog "familyName" "Goff"))

/-- The first group leaves two attributes to select from, the second one three; the third cannot be
used. -/
theorem length_generate_groupedRule :
    Rule.ofConfig groupedConfig = .ok groupedRule ∧
      groupedRule.canApply groupedObservation = true ∧
      ∃ ds, groupedRule.generate CatalogTable.person.catalog (.ofMatching {}) groupedObservation {} =
        .ok ds ∧ ds.length = 2 * 1 + 3 * 2 := by
  have hbuilt : Rule.ofConfig groupedConfig = .ok groupedRule := by rfl
  have happ : groupedRule.canApply groupedObservation = true := by decide
  obtain ⟨ds, hds, hlength⟩ := length_generate hbuilt CatalogTable.person.catalog (.ofMatching {})
    groupedObservation {} happ
  exact ⟨hbuilt, happ, ds, hds, hlength.trans (by decide)⟩

end Lookalike
