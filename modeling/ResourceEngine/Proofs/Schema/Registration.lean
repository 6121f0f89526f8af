import Mathlib.Data.List.Perm.Lattice
import ResourceEngine.Proofs.Schema.Consistency

/-!
# Registration

A list of definitions is registered if it is coherent: each schema is well formed on its own, the
names are different, and each relation goes to a resource of the list that it can be joined with.
`Coherent` says this of the list alone, where relations may refer to definitions before and after
their own. Neither the order of the definitions nor the order in which the resources are checked
changes what is registered.
-/

namespace ResourceEngine

namespace Schema

variable {s : Schema}

theorem map_fst_keyFields (s : Schema) :
    s.keyFields.map (·.1) = s.fields.filter (·.primary) := by
  have hfilter : s.keyFields = s.fields.zipIdx.filter ((·.primary) ∘ Prod.fst) := rfl
  rw [hfilter, ← List.filter_map, List.zipIdx_map_fst]

theorem hasSingleKey_iff : s.hasSingleKey = true ↔ s.fields.countP (·.primary) = 1 := by
  rw [hasSingleKey, beq_iff_eq, List.countP_eq_length_filter, ← map_fst_keyFields, List.length_map]

theorem isSome_field?_iff {name : String} :
    (s.field? name).isSome = true ↔ name ∈ s.columns := by
  simp [field?, columns]

end Schema

/-- The relation of a resource can be followed among the definitions. Its target is one of them; and
the target, where the relation refers to its key, or the owner, where the target refers to the key of
the owner, has a primary key of one field. -/
def Relation.Joins (definitions : List Resource) (owner : Resource) (relation : Relation) : Prop :=
  ∃ target ∈ definitions, target.name = relation.target ∧
    match relation.link with
    | .belongsTo _ => target.schema.fields.countP (·.primary) = 1
    | .hasMany field => field ∈ target.schema.columns ∧
      owner.schema.fields.countP (·.primary) = 1

namespace Registry

/-- Definitions that can be registered. -/
structure Coherent (definitions : List Resource) : Prop where
  name_ne : ∀ r ∈ definitions, r.name ≠ ""
  nodup : (definitions.map (·.name)).Nodup
  wellFormed : ∀ r ∈ definitions, r.schema.WellFormed
  joins : ∀ r ∈ definitions, ∀ relation ∈ r.schema.relations, relation.Joins definitions r

/-- The registry of a list of definitions, whose resources are checked in some order. -/
def buildIn (visit : Registry → List Resource) (definitions : List Resource) :
    Except Fault Registry := do
  let g ← definitions.foldlM define empty
  (visit g).forM fun r => r.schema.relations.forM (g.checkRelation r)
  return g

theorem buildIn_resources : buildIn (·.resources) = build := rfl

variable {g : Registry} {definitions definitions' : List Resource} {visit : Registry → List Resource}

theorem Coherent.perm (h : Coherent definitions) (hperm : definitions.Perm definitions') :
    Coherent definitions' where
  name_ne r hr := h.name_ne r (hperm.mem_iff.2 hr)
  nodup := (hperm.map _).nodup_iff.1 h.nodup
  wellFormed r hr := h.wellFormed r (hperm.mem_iff.2 hr)
  joins r hr relation hrelation := by
    obtain ⟨target, htarget, hjoins⟩ := h.joins r (hperm.mem_iff.2 hr) relation hrelation
    exact ⟨target, hperm.mem_iff.1 htarget, hjoins⟩

/-- Where names are different, a name is looked up as the resource that has it. -/
theorem lookup?_eq_some_iff (hg : (g.resources.map (·.name)).Nodup) {name : String} {r : Resource} :
    g.lookup? name = some r ↔ r ∈ g.resources ∧ r.name = name := by
  refine ⟨fun h => ⟨mem_of_lookup? h, by simpa using List.find?_some h⟩, ?_⟩
  rintro ⟨hr, rfl⟩
  cases hlookup : g.lookup? r.name with
  | none => exact absurd (List.mem_map_of_mem hr) (lookup?_eq_none_iff.1 hlookup)
  | some r' =>
    have hname : r'.name = r.name := by simpa using List.find?_some hlookup
    exact congrArg some (List.inj_on_of_nodup_map hg (mem_of_lookup? hlookup) hr hname)

theorem checkRelation_eq_ok_iff_joins (hg : (g.resources.map (·.name)).Nodup) {r : Resource}
    {relation : Relation} :
    g.checkRelation r relation = .ok () ↔ relation.Joins g.resources r := by
  rw [checkRelation_eq_ok_iff, Relation.Joins]
  cases relation.link with
  | belongsTo _ => simp only [lookup?_eq_some_iff hg, Schema.hasSingleKey_iff, and_assoc]
  | hasMany field =>
    simp only [lookup?_eq_some_iff hg, Schema.hasSingleKey_iff, Schema.isSome_field?_iff, and_assoc]

/-- The definitions are registered, all of them and as they are, if they are coherent. -/
theorem buildIn_eq_ok_iff (hvisit : ∀ g, (visit g).Perm g.resources) :
    buildIn visit definitions = .ok g ↔ Coherent definitions ∧ g = ⟨definitions⟩ := by
  rw [buildIn, checked_eq_ok_iff, foldlM_define_eq_ok_iff]
  have hempty : ∀ r ∈ definitions, r.name ∉ empty.resources.map (·.name) :=
    fun _ _ => List.not_mem_nil
  constructor
  · rintro ⟨⟨hchecks, -, hnodup, rfl⟩, hcheck⟩
    refine ⟨⟨fun r hr => (hchecks r hr).2, hnodup,
      fun r hr => Schema.check_eq_ok_iff.1 (hchecks r hr).1, fun r hr relation hrelation => ?_⟩, rfl⟩
    have hrelations := forM_eq_ok_iff.1 hcheck r ((hvisit _).mem_iff.2 hr)
    exact (checkRelation_eq_ok_iff_joins hnodup).1 (forM_eq_ok_iff.1 hrelations relation hrelation)
  · rintro ⟨h, rfl⟩
    refine ⟨⟨fun r hr => ⟨Schema.check_eq_ok_iff.2 (h.wellFormed r hr), h.name_ne r hr⟩, hempty,
      h.nodup, rfl⟩, ?_⟩
    refine forM_eq_ok_iff.2 fun r hr => forM_eq_ok_iff.2 fun relation hrelation => ?_
    exact (checkRelation_eq_ok_iff_joins h.nodup).2
      (h.joins r ((hvisit _).mem_iff.1 hr) relation hrelation)

theorem exists_buildIn_iff (hvisit : ∀ g, (visit g).Perm g.resources) :
    (∃ g, buildIn visit definitions = .ok g) ↔ Coherent definitions := by
  simp only [buildIn_eq_ok_iff hvisit, exists_and_left, exists_eq, and_true]

/-- Registration accepts the coherent lists of definitions, in any order and however the resources
are visited when they are checked; and a name is then looked up as the resource that was defined
under it, if there is one. -/
theorem build_accepts (hperm : definitions.Perm definitions')
    (hvisit : ∀ g, (visit g).Perm g.resources) :
    ((∃ g, build definitions = .ok g) ↔ Coherent definitions) ∧
      ((∃ g, buildIn visit definitions' = .ok g) ↔ ∃ g, build definitions = .ok g) ∧
      ∀ g g', build definitions = .ok g → buildIn visit definitions' = .ok g' → ∀ name,
        g'.lookup? name = g.lookup? name ∧
          ∀ r, g.lookup? name = some r ↔ r ∈ definitions ∧ r.name = name := by
  have hself : ∀ g : Registry, g.resources.Perm g.resources := fun g => .refl _
  rw [← buildIn_resources, exists_buildIn_iff hself, exists_buildIn_iff hvisit]
  refine ⟨Iff.rfl, ⟨fun h => h.perm hperm.symm, fun h => h.perm hperm⟩, ?_⟩
  intro g g' hg hg' name
  obtain ⟨h, rfl⟩ := (buildIn_eq_ok_iff hself).1 hg
  obtain ⟨h', rfl⟩ := (buildIn_eq_ok_iff hvisit).1 hg'
  refine ⟨Option.ext fun r => ?_, fun r => lookup?_eq_some_iff h.nodup⟩
  rw [lookup?_eq_some_iff h.nodup, lookup?_eq_some_iff h'.nodup, hperm.mem_iff]

/-- Members have tasks. -/
def members : Resource where
  name := "members"
  schema :=
    { table := "members"
      fields := [⟨"id", .integer, false, true, true⟩, ⟨"name", .text, false, false, false⟩]
      relations := [⟨"tasks", "tasks", .hasMany "member"⟩] }
  actions := .all

/-- A task belongs to a member. -/
def tasks : Resource where
  name := "tasks"
  schema :=
    { table := "tasks"
      fields := [⟨"id", .integer, false, true, true⟩, ⟨"member", .integer, true, false, false⟩]
      relations := [⟨"owner", "members", .belongsTo "member"⟩] }
  actions := .all

/-- Two resources that refer to each other are registered in either order. -/
theorem build_accepts_members :
    [members, tasks].Perm [tasks, members] ∧
      (∀ g : Registry, g.resources.reverse.Perm g.resources) ∧ Coherent [members, tasks] ∧
      ∃ g, buildIn (·.resources.reverse) [tasks, members] = .ok g ∧
        g.lookup? "tasks" = some tasks ∧ g.lookup? "notes" = none := by
  have hperm : [members, tasks].Perm [tasks, members] := List.Perm.swap _ _ _
  have hvisit : ∀ g : Registry, g.resources.reverse.Perm g.resources := fun g =>
    g.resources.reverse_perm
  have hbuild : build [members, tasks] = .ok ⟨[members, tasks]⟩ := rfl
  obtain ⟨hcoherent, horder, hlookup⟩ := build_accepts hperm hvisit
  obtain ⟨g, hg⟩ := horder.2 ⟨_, hbuild⟩
  refine ⟨hperm, hvisit, hcoherent.1 ⟨_, hbuild⟩, g, hg, ?_, ?_⟩
  · exact (hlookup _ g hbuild hg "tasks").1
  · exact (hlookup _ g hbuild hg "notes").1

end Registry

end ResourceEngine
