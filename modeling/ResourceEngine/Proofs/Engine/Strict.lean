import ResourceEngine.Proofs.Engine.Join
import ResourceEngine.Proofs.Engine.Refusal

/-!
# Strict execution

Execution looks up targets and keys that a registry has been checked for, and takes fields by
position from schemas, entities and projections. Strict execution stops with a defect wherever such
a lookup fails or a position is out of range. On a registry that was built it is the same as
execution, whatever the defect is: no request gets there.
-/

namespace ResourceEngine

/-- The positions are those of fields. -/
def Schema.Covers (s : Schema) (projection : List Nat) : Prop :=
  ∀ i ∈ projection, i < s.fields.length

instance (s : Schema) (projection : List Nat) : Decidable (s.Covers projection) :=
  inferInstanceAs (Decidable (∀ i ∈ projection, i < s.fields.length))

/-- The entity has a value at the position of the field, if its schema has the field. -/
def Entity.holds (e : Entity) (field : String) : Bool :=
  (e.schema.fieldIndex? field).all fun i => decide (i < e.values.length)

namespace Work

variable {σ α : Type}

/-- Stops with the defect unless the condition holds. -/
def demand (defect : Stop) (c : Prop) [Decidable c] : Work σ Unit :=
  if c then pure () else throw defect

/-- A result that has to be there: any problem is the defect. -/
def expect (defect : Stop) : Except Problem α → Work σ α
  | .ok a => pure a
  | .error _ => throw defect

end Work

namespace Engine.Strict

open Work

variable {σ : Type} (defect : Stop) (s : Store σ) (g : Registry) (t : Target) (k : Connection)

/-- The entity of the first row of a statement that returns every column. -/
def writtenRow (sql : Sql) (p : Problem) : Work σ Entity := do
  demand defect (t.schema.Covers t.schema.indices)
  Engine.writtenRow s t k sql p

/-- The rows of a target with one of the keys in a column. -/
def relatedRows (column : String) (keys : List (List Value)) : Work σ (List Entity) := do
  demand defect (t.schema.Covers t.schema.indices)
  Engine.relatedRows s t k column keys

/-- Loads one relation of entities: its target has to be registered and its keys to be there. -/
def loadRelation (relation : Relation) (entities : List Entity) : Work σ (List Entity) := do
  match g.lookup? relation.target with
  | none => throw defect
  | some resource =>
    let other := Target.make resource t.space t.dialect
    match relation.link with
    | .belongsTo field =>
      let (pk, i) ← expect defect resource.primaryKey
      demand defect (∀ e ∈ entities, e.holds field)
      let keys := keyChunks (entities.filterMap (·.get? field))
      let related ← relatedRows defect s other k pk.name keys
      return entities.map (attachOne relation field i related)
    | .hasMany field =>
      let (_, i) ← expect defect t.resource.primaryKey
      let keys := keyChunks (entities.filterMap (·.getAt? i))
      let related ← relatedRows defect s other k field keys
      demand defect (∀ e ∈ related, e.holds field)
      return entities.map (attachMany relation field i related)

/-- Loads relations of entities one after another. -/
def loadRelations : List Relation → List Entity → Work σ (List Entity)
  | _, [] => return []
  | [], entities => return entities
  | relation :: rest, e :: es => do
    loadRelations rest (← loadRelation defect s g t k relation (e :: es))

/-- The row with a key. -/
def fetchOne (key : Value) (projection : List Nat) (relations : List Relation) : Work σ Entity := do
  demand defect (t.schema.Covers projection)
  let sql ← expect defect (t.selectOne projection key)
  let row ← firstRow s k sql .noRows
  let e ← Work.ofExcept (Entity.ofRow t.schema projection row)
  match ← loadRelations defect s g t k relations [e] with
  | loaded :: _ => return loaded
  | [] => return e

/-- A window of rows. -/
def fetchPage (p : PageSelection) (projection : List Nat) (relations : List Relation) :
    Work σ Page := do
  demand defect (t.schema.Covers projection)
  let count ← fetchCount s k p.count
  if count = 0 then
    return Page.empty p.offset p.limit
  let rows ← s.query k p.select
  let entities ← Work.ofExcept (rows.mapM (Entity.ofRow t.schema projection))
  let slice ← loadRelations defect s g t k relations entities
  return ⟨slice, p.offset, p.limit, count⟩

/-- Overwrites the row that has the entity's key. -/
def replace (e : Entity) : Work σ Entity := do
  let (_, i) ← expect defect t.resource.primaryKey
  demand defect (i < e.values.length)
  let sql ← expect defect (t.update e)
  writtenRow defect s t k sql .noRows

/-- Reads the row with a key, decodes a body onto it, and writes it back under the same key. -/
def partialUpdate (key : Value) (body : List UInt8) (contentType : String) : Work σ Entity := do
  let (_, i) ← expect defect t.resource.primaryKey
  let stored ← fetchOne defect s g t k key t.schema.indices []
  let (e, decoded) := stored.decode body contentType
  Work.ofExcept decoded
  replace defect s t k (e.setAt i key)

/-- Deletes the row with a key and gives it as it was. -/
def delete (key : Value) : Work σ Entity := do
  let sql ← expect defect (t.delete key)
  writtenRow defect s t k sql .noRows

/-- Runs a checked request on an open transaction. -/
def run (plan : Plan) (k : Connection) : Work σ Output := do
  let t := plan.target
  match plan.task with
  | .fetchOne key projection relations =>
    return .entity (← fetchOne defect s g t k key projection relations)
  | .fetchPage page projection relations =>
    return .page (← fetchPage defect s g t k page projection relations)
  | .create e => return .entity (← writtenRow defect s t k (t.insert e) .insertReturnedNothing)
  | .replace e => return .entity (← replace defect s t k e)
  | .partialUpdate key body contentType =>
    return .entity (← partialUpdate defect s g t k key body contentType)
  | .delete key => return .entity (← delete defect s t k key)

/-- Runs a request under a propagation. -/
def executeIn (g : Engine) (q : Query) (ambient : Option Connection) (mode : Propagation) :
    Work σ (Outcome Output) := do
  match g.prepare s.dialect q with
  | .error p => Work.fail (finalError q p.error)
  | .ok plan =>
    let ended ← Work.attempt (s.propagate q.context ambient mode (run defect s g.registry plan))
    Work.resume (reworded q ended)

end Engine.Strict

/-! ### Results of work -/

namespace Work

variable {σ α β : Type} {P : α → Prop} {Q : β → Prop} {w : Work σ α} {f f' : α → Work σ β}

/-- A condition that holds is no demand. -/
theorem demand_of {defect : Stop} {c : Prop} [Decidable c] (hc : c) :
    (demand defect c : Work σ Unit) = pure () := if_pos hc

/-- A result that is there can be expected. -/
theorem expect_of_ok {defect : Stop} {r : Except Problem α} {a : α} (hr : r = .ok a) :
    (expect defect r : Work σ α) = ofExcept r := by
  rw [hr]
  rfl

/-- Every value that the work ends with is of this sort. -/
def Returns (P : α → Prop) (w : Work σ α) : Prop := ∀ t a u, w.on t = (.ok a, u) → P a

theorem returns_true (w : Work σ α) : w.Returns fun _ => True := fun _ _ _ _ => trivial

theorem returns_pure {a : α} (ha : P a) : (pure a : Work σ α).Returns P := by
  rintro t _ u ⟨⟩
  exact ha

theorem returns_ofExcept {r : Except Problem α} (hr : ∀ a, r = .ok a → P a) :
    (ofExcept r : Work σ α).Returns P := fun _ a _ h => hr a (of_on_ofExcept h).1

theorem returns_fail (e : Error) : (fail e : Work σ α).Returns P := fun _ _ _ h => nomatch h

/-- A sequence of work returns what its last part does, given what the first one returns. -/
theorem Returns.bind (hw : w.Returns P) (hf : ∀ a, P a → (f a).Returns Q) :
    (w >>= f).Returns Q := by
  intro t b u h
  obtain ⟨a, v, ha, hb⟩ := exists_of_on_bind h
  exact hf a (hw t a v ha) v b u hb

/-- Work goes on in the same way if it does so for every value that it comes to. -/
theorem Returns.bind_congr (hw : w.Returns P) (hf : ∀ a, P a → f a = f' a) :
    w >>= f = w >>= f' := by
  refine ext_on fun t => ?_
  rw [on_bind, on_bind]
  rcases hrun : w.on t with ⟨stop | a, u⟩
  · rfl
  · simp only [hf a (hw t a u hrun)]

end Work

/-! ### Entities of a schema -/

/-- The entity is one of the schema and fills it: it has a value for each field. -/
structure Entity.Fills (s : Schema) (e : Entity) : Prop where
  schema : e.schema = s
  length : e.values.length = s.fields.length

namespace Entity

variable {s : Schema} {e : Entity}

/-- An entity that has been read has a value for every field. -/
theorem fills_of_ofRow {projection : List Nat} {row : Row} (h : ofRow s projection row = .ok e) :
    e.Fills s :=
  ⟨(frame_ofRow h).1, (frame_ofRow h).2.2⟩

theorem fills_of_mapM_ofRow {projection : List Nat} {rows : List Row} {es : List Entity}
    (h : rows.mapM (ofRow s projection) = .ok es) : ∀ e ∈ es, e.Fills s :=
  Target.forall_of_mapM (fun _ _ => fills_of_ofRow) h

theorem Fills.setAt (he : e.Fills s) (i : Nat) (v : Value) : (e.setAt i v).Fills s :=
  ⟨he.schema, (length_values_setAt e i v).trans he.length⟩

theorem Fills.setRelation (he : e.Fills s) (name : String) (r : Related) :
    (e.setRelation name r).Fills s :=
  ⟨he.schema, he.length⟩

/-- An entity that has been decoded onto has a value for every field, still. -/
theorem Fills.decode (he : e.Fills s) {body : List UInt8} {contentType : String}
    (h : (e.decode body contentType).2 = .ok ()) : (e.decode body contentType).1.Fills s := by
  obtain ⟨-, pairs, -, -, hassign⟩ := exists_assign_of_decode (Prod.ext rfl h)
  obtain ⟨hschema, -, hlength⟩ := frame_assign hassign
  exact ⟨hschema.trans he.schema, hlength.trans he.length⟩

/-- An entity with a value for each field holds every field by name. -/
theorem Fills.holds (he : e.Fills s) (field : String) : e.holds field = true := by
  unfold Entity.holds
  cases hindex : e.schema.fieldIndex? field with
  | none => rfl
  | some i =>
    rw [Option.all_some, decide_eq_true_iff, he.length, ← he.schema]
    exact Schema.lt_of_fieldIndex? hindex

end Entity

/-! ### Execution -/

namespace Engine

open Work

variable {σ : Type} {defect : Stop} (s : Store σ) {g : Registry} {t : Target} (k : Connection)

theorem covers_indices (s : Schema) : s.Covers s.indices := s.isProjection_indices.lt

/-- A written row demands nothing that is not there. -/
theorem strict_writtenRow (sql : Sql) (p : Problem) :
    Strict.writtenRow defect s t k sql p = writtenRow s t k sql p := by
  rw [Strict.writtenRow, demand_of (covers_indices t.schema), pure_bind]

/-- Related rows demand nothing that is not there. -/
theorem strict_relatedRows (column : String) (keys : List (List Value)) :
    Strict.relatedRows defect s t k column keys = relatedRows s t k column keys := by
  rw [Strict.relatedRows, demand_of (covers_indices t.schema), pure_bind]

/-- Related rows are entities with a value for every field. -/
theorem returns_relatedRows (column : String) (keys : List (List Value)) :
    (relatedRows s t k column keys).Returns fun es => ∀ e ∈ es, e.Fills t.schema := by
  induction keys with
  | nil => exact returns_pure (List.forall_mem_nil _)
  | cons chunk keys ih =>
    refine (returns_true _).bind fun rows _ => ?_
    refine (returns_ofExcept fun _ => Entity.fills_of_mapM_ofRow).bind fun found hfound => ?_
    exact ih.bind fun others hothers => returns_pure (List.forall_mem_append.2 ⟨hfound, hothers⟩)

variable {schema : Schema}

/-- To load a relation leaves the values of the entities. -/
theorem returns_loadRelation (relation : Relation) {entities : List Entity}
    (hentities : ∀ e ∈ entities, e.Fills schema) :
    (loadRelation s g t k relation entities).Returns fun es => ∀ e ∈ es, e.Fills schema := by
  unfold loadRelation
  cases g.lookup? relation.target with
  | none => exact returns_fail _
  | some other =>
    cases relation.link with
    | belongsTo field | hasMany field =>
      refine (returns_true _).bind fun key _ => (returns_true _).bind fun related _ => ?_
      refine returns_pure ?_
      rw [List.forall_mem_map]
      exact fun e he => (hentities e he).setRelation _ _

/-- The target of a declared relation is there, and so are the keys on both sides. -/
theorem strict_loadRelation (hg : g.Consistent) (ht : t.resource ∈ g.resources)
    {relation : Relation} (hrelation : relation ∈ t.schema.relations) {entities : List Entity}
    (hentities : ∀ e ∈ entities, e.Fills schema) :
    Strict.loadRelation defect s g t k relation entities =
      loadRelation s g t k relation entities := by
  obtain ⟨other, hother, hlink⟩ :=
    Registry.checkRelation_eq_ok_iff.1 (hg.relations t.resource ht relation hrelation)
  unfold Strict.loadRelation loadRelation
  rw [hother]
  cases hkind : relation.link with
  | belongsTo field =>
    rw [hkind] at hlink
    obtain ⟨key, hkey⟩ : ∃ key, other.primaryKey = .ok key :=
      Schema.exists_primaryKey_of_hasSingleKey hlink other.name
    have hholds : ∀ e ∈ entities, e.holds field = true := fun e he => (hentities e he).holds field
    simp only [expect_of_ok hkey, demand_of hholds, pure_bind, strict_relatedRows]
  | hasMany field =>
    rw [hkind] at hlink
    obtain ⟨key, hkey⟩ : ∃ key, t.resource.primaryKey = .ok key :=
      Schema.exists_primaryKey_of_hasSingleKey hlink.2 t.resource.name
    simp only [expect_of_ok hkey, strict_relatedRows]
    refine bind_congr fun key => ?_
    refine (returns_relatedRows s k _ _).bind_congr fun related hrelated => ?_
    rw [demand_of fun e he => (hrelated e he).holds field, pure_bind]

/-- To load relations leaves the values of the entities. -/
theorem returns_loadRelations {relations : List Relation} {entities : List Entity}
    (hentities : ∀ e ∈ entities, e.Fills schema) :
    (loadRelations s g t k relations entities).Returns fun es => ∀ e ∈ es, e.Fills schema := by
  induction relations generalizing entities with
  | nil => cases entities <;> exact returns_pure hentities
  | cons relation relations ih =>
    cases entities with
    | nil => exact returns_pure hentities
    | cons e es => exact (returns_loadRelation s k relation hentities).bind fun loaded => ih

/-- Relations are loaded one after another, each with entities that still have their values. -/
theorem strict_loadRelations (hg : g.Consistent) (ht : t.resource ∈ g.resources)
    {relations : List Relation} (hrelations : ∀ r ∈ relations, r ∈ t.schema.relations)
    {entities : List Entity} (hentities : ∀ e ∈ entities, e.Fills schema) :
    Strict.loadRelations defect s g t k relations entities =
      loadRelations s g t k relations entities := by
  induction relations generalizing entities with
  | nil => cases entities <;> rfl
  | cons relation relations ih =>
    cases entities with
    | nil => rfl
    | cons e es =>
      rw [List.forall_mem_cons] at hrelations
      rw [Strict.loadRelations, loadRelations, strict_loadRelation s k hg ht hrelations.1 hentities]
      exact (returns_loadRelation s k relation hentities).bind_congr fun loaded => ih hrelations.2

theorem returns_fetchOne (key : Value) (projection : List Nat) (relations : List Relation) :
    (fetchOne s g t k key projection relations).Returns (·.Fills t.schema) := by
  refine (returns_true _).bind fun sql _ => (returns_true _).bind fun row _ => ?_
  refine (returns_ofExcept fun _ => Entity.fills_of_ofRow).bind fun e he => ?_
  refine (returns_loadRelations s k (List.forall_mem_singleton.2 he)).bind fun loaded hloaded => ?_
  cases loaded with
  | nil => exact returns_pure he
  | cons e es => exact returns_pure (hloaded e List.mem_cons_self)

section

variable (hg : g.Consistent) (ht : t.resource ∈ g.resources)

include hg ht

/-- One row is fetched strictly, given the primary key and a projection of fields. -/
theorem strict_fetchOne {pk : Field × Nat} (hpk : t.resource.primaryKey = .ok pk) (key : Value)
    {projection : List Nat} (hprojection : t.schema.Covers projection) {relations : List Relation}
    (hrelations : ∀ r ∈ relations, r ∈ t.schema.relations) :
    Strict.fetchOne defect s g t k key projection relations =
      fetchOne s g t k key projection relations := by
  obtain ⟨sql, hsql⟩ : ∃ sql, t.selectOne projection key = .ok sql := by
    rw [Target.selectOne, Target.whereKey_eq hpk]
    exact ⟨_, rfl⟩
  rw [Strict.fetchOne, fetchOne, demand_of hprojection, pure_bind, expect_of_ok hsql]
  refine bind_congr fun sql => bind_congr fun row => ?_
  refine Returns.bind_congr (returns_ofExcept fun _ => Entity.fills_of_ofRow) fun e he => ?_
  have hloaded : Strict.loadRelations defect s g t k relations [e] =
      loadRelations s g t k relations [e] :=
    strict_loadRelations s k hg ht hrelations (List.forall_mem_singleton.2 he)
  exact (congrArg (· >>= _) hloaded).trans (bind_congr fun loaded => by cases loaded <;> rfl)

/-- A page is fetched strictly, given a projection of fields. -/
theorem strict_fetchPage {projection : List Nat} (hprojection : t.schema.Covers projection)
    {relations : List Relation} (hrelations : ∀ r ∈ relations, r ∈ t.schema.relations)
    (p : PageSelection) :
    Strict.fetchPage defect s g t k p projection relations =
      fetchPage s g t k p projection relations := by
  rw [Strict.fetchPage, fetchPage, demand_of hprojection, pure_bind]
  refine bind_congr fun count => ?_
  by_cases hcount : count = 0
  · rw [if_pos hcount, if_pos hcount]
  · rw [if_neg hcount, if_neg hcount]
    refine bind_congr fun rows => ?_
    refine Returns.bind_congr (returns_ofExcept fun _ => Entity.fills_of_mapM_ofRow)
      fun es hes => ?_
    rw [strict_loadRelations s k hg ht hrelations hes]

end

/-- A row is replaced strictly, given the primary key. -/
theorem strict_replace {pk : Field × Nat} (hpk : t.resource.primaryKey = .ok pk) {e : Entity}
    (he : e.Fills t.schema) : Strict.replace defect s t k e = replace s t k e := by
  obtain ⟨pk, i⟩ := pk
  have hi : i < e.values.length := by
    rw [he.length]
    exact (List.getElem?_eq_some_iff.1 (Schema.getElem?_of_primaryKey hpk).1).1
  have hkey : (expect defect t.resource.primaryKey : Work σ _) = pure (pk, i) := by
    rw [expect_of_ok hpk, hpk]
    rfl
  rw [Strict.replace, replace, hkey, pure_bind]
  simp only [demand_of hi, pure_bind, expect_of_ok (Target.update_eq hpk e), strict_writtenRow]

/-- A row is updated in part strictly: what has been read has a value for every field, and keeps one
when the body is decoded onto it. -/
theorem strict_partialUpdate (hg : g.Consistent) (ht : t.resource ∈ g.resources)
    {pk : Field × Nat} (hpk : t.resource.primaryKey = .ok pk) (key : Value) (body : List UInt8)
    (contentType : String) :
    Strict.partialUpdate defect s g t k key body contentType =
      partialUpdate s g t k key body contentType := by
  rw [Strict.partialUpdate, partialUpdate, expect_of_ok hpk]
  refine bind_congr fun _ => ?_
  rw [strict_fetchOne s k hg ht hpk key (covers_indices t.schema) (List.forall_mem_nil _)]
  refine (returns_fetchOne s k key _ []).bind_congr fun stored hstored => ?_
  refine Returns.bind_congr (P := fun _ => (stored.decode body contentType).2 = .ok ())
    (returns_ofExcept fun _ => id) fun _ hdecoded => ?_
  exact strict_replace s k hpk ((hstored.decode hdecoded).setAt _ key)

/-- A row is deleted strictly, given the primary key. -/
theorem strict_delete {pk : Field × Nat} (hpk : t.resource.primaryKey = .ok pk) (key : Value) :
    Strict.delete defect s t k key = delete s t k key := by
  obtain ⟨sql, hsql⟩ : ∃ sql, t.delete key = .ok sql := by
    rw [Target.delete, Target.whereKey_eq hpk]
    exact ⟨_, rfl⟩
  rw [Strict.delete, delete, expect_of_ok hsql]
  exact bind_congr fun sql => strict_writtenRow s k sql _

/-- A decoded body has a value for every field. -/
theorem fills_of_decodeBody {g : Engine} {r : Resource} {q : Query} {e : Entity}
    (h : g.decodeBody r q = .ok e) : e.Fills r.schema := by
  have hzeroed : (Entity.zeroed r.schema).Fills r.schema := ⟨rfl, Entity.length_values_zeroed _⟩
  obtain ⟨⟨⟩, hdecoded, h⟩ := Filter.exists_of_bind h
  cases h
  exact hzeroed.decode hdecoded

/-- What a checked request does on its transaction never gets to the defect. -/
theorem strict_run {g : Engine} {q : Query} {plan : Plan} (hg : g.registry.Consistent)
    (ht : plan.target.resource ∈ g.registry.resources)
    (hchecked : g.Checked q plan.target plan.task) :
    Strict.run defect s g.registry plan = g.run s plan := by
  funext k
  obtain ⟨t, task⟩ := plan
  unfold Strict.run run
  cases hchecked with
  | fetchOne hfields hrelations hkey =>
    obtain ⟨pk, hpk⟩ := exists_primaryKey_of_parseKey hkey
    have hresolved := Target.resolved_of_relations hfields hrelations
    simp only [strict_fetchOne s k hg ht hpk _ hresolved.isProjection.lt hresolved.declared]
  | fetchPage hfields hrelations hpage =>
    have hresolved := Target.resolved_of_relations hfields hrelations
    simp only [strict_fetchPage s k hg ht hresolved.isProjection.lt hresolved.declared]
  | create hbody => simp only [strict_writtenRow, create]
  | @replace key pk i e hkey hpk hbody =>
    have he : (e.setAt i key).Fills t.schema := (fills_of_decodeBody hbody).setAt i key
    simp only [strict_replace s k hpk he]
  | partialUpdate hformat hkey =>
    obtain ⟨pk, hpk⟩ := exists_primaryKey_of_parseKey hkey
    simp only [strict_partialUpdate s k hg ht hpk]
  | delete hkey =>
    obtain ⟨pk, hpk⟩ := exists_primaryKey_of_parseKey hkey
    simp only [strict_delete s k hpk]

/-- A request is executed strictly under any propagation. -/
theorem strict_executeIn {g : Engine} (hg : g.registry.Consistent) (q : Query)
    (ambient : Option Connection) (mode : Propagation) :
    Strict.executeIn defect s g q ambient mode = g.executeIn s q ambient mode := by
  refine ext_on fun t => ?_
  rw [executeIn_on, Strict.executeIn]
  cases hplan : g.prepare s.dialect q with
  | error p => rfl
  | ok plan =>
    obtain ⟨r, hr, htarget, hchecked⟩ := checked_of_prepare hplan
    have ht : plan.target.resource ∈ g.registry.resources := by
      rw [htarget]
      exact hr
    simp only [strict_run s hg ht hchecked]
    rw [Work.on_bind, Work.on_attempt]
    rfl

/-! ### Problems of the model -/

/-- No problem that stops a checked request is one of the model. -/
theorem not_relational_of_raises (hg : g.Consistent) (ht : t.resource ∈ g.resources)
    {relations : List Relation}
    (hrelations : ∀ r ∈ relations, r ∈ t.schema.relations) {p : Problem}
    (h : t.Raises g relations p) : p.isRelational = false := by
  cases h with
  | arising h => exact Problem.not_relational_of_arises h
  | noTarget hrelation hnone =>
    obtain ⟨other, hother, -⟩ := Registry.checkRelation_eq_ok_iff.1
      (hg.relations t.resource ht _ (hrelations _ hrelation))
    exact nomatch hnone.symm.trans hother
  | noKey h => exact (Target.failsWith_primaryKey p h).isBad.not_relational
  | @noRelatedKey relation hrelation field hlink other hother p h =>
    have hfails := Target.failsWith_primaryKey (t := Target.make other t.space t.dialect)
    exact (hfails p h).isBad.not_relational
  | noFormat h => exact (failsWith_detect _ p h).isBad.not_relational

/-- An error that is worded like a problem of the model has not been reworded. -/
theorem finalError_of_relational {q : Query} {e : Error}
    (h : (finalError q e).message.toList.take 3 = ['r', 'e', 'l']) : finalError q e = e := by
  unfold finalError at h ⊢
  split_ifs at h ⊢ with hkey
  · simp [Error.withMessage, String.toList_append, toString] at h
  · rfl

/-- An error that is put into other words was there before. -/
theorem exists_of_error?_reworded {q : Query} {ending : Except Stop (Outcome Output)} {e : Error}
    (h : Outcome.error? (reworded q ending) = some e) :
    ∃ e₀, Outcome.error? ending = some e₀ ∧ e = finalError q e₀ := by
  rcases ending with (e' | message) | (output | e') <;> cases h <;> exact ⟨e', rfl, rfl⟩

/-- What a built registry rules out. Strict execution, which stops with a defect wherever a target
or a key that has been checked is not there or a position is out of range, is the same as execution,
on every store and whatever the defect is. The check of a request has positions only of fields, and
joins every declared relation. And an error that is worded like a problem of the model, that a
relation has no target or no field of its own, is never of execution's making: it is an answer that
the store has given in this run. -/
theorem executeIn_strict {definitions : List Resource} {g : Engine}
    (hg : Registry.build definitions = .ok g.registry) (q : Query) (ambient : Option Connection)
    (mode : Propagation) :
    (∀ {σ : Type} (s : Store σ) (defect : Stop),
      Strict.executeIn defect s g q ambient mode = g.executeIn s q ambient mode) ∧
    (∀ r, g.registry.lookup? q.resource = some r → ∀ d,
      let t := Target.make r (g.space q) d
      (∀ relation ∈ r.schema.relations,
        ∃ i < r.schema.fields.length, t.joinIndex relation = .ok i) ∧
      ∀ selected, t.projection q.fields = .ok selected →
        r.schema.Covers selected ∧ r.schema.Covers (t.relations selected q.relations).2) ∧
    ∀ (O : Oracle) (h : History), ∃ ending new,
      (g.executeIn O.store q ambient mode).on h = (ending, h ++ new) ∧
      ∀ e, Outcome.error? ending = some e → ∀ p : Problem, p.isRelational = true →
        e.message = p.message → ∃ x ∈ new, x.refusal? = some e := by
  have hg := Registry.consistent_of_build hg
  refine ⟨fun s defect => strict_executeIn s hg q ambient mode, fun r hr d => ⟨?_, ?_⟩, ?_⟩
  · have hr := Registry.mem_of_lookup? hr
    exact fun relation hrelation =>
      Target.exists_joinIndex (t := Target.make r (g.space q) d) hg hr hrelation
  · intro selected hfields
    have hselected := Target.isProjection_of_projection hfields
    exact ⟨hselected.lt, (Target.isProjection_resolve [] q.relations hselected).lt⟩
  intro O h
  rw [executeIn_on]
  -- An error of the check is a refusal, and none of those is worded so. After the check an error is
  -- an answer of the store or a problem that can be raised, and again none of those is.
  cases hplan : g.prepare O.store.dialect q with
  | error p =>
    refine ⟨_, [], by rw [List.append_nil], ?_⟩
    rintro _ ⟨⟩ p' hp' heq
    have hmessage := heq ▸ Problem.take_message_of_relational hp'
    rw [finalError_of_relational hmessage] at hmessage
    exact absurd hmessage (Problem.take_message_ne (failsWith_prepare hg _ p hplan).not_relational)
  | ok plan =>
    obtain ⟨r, hr, htarget, hchecked⟩ := checked_of_prepare hplan
    have ht : plan.target.resource ∈ g.registry.resources := by
      rw [htarget]
      exact hr
    have hdeclared : ∀ r ∈ plan.task.relations, r ∈ plan.target.schema.relations :=
      fun r hr => List.mem_of_find?_eq_some (hchecked.relations hr).2.2
    have hqueries (k : Connection) : Queries O (plan.target.Sends g.registry plan.task.relations)
        (·.isRelational = false) k (g.run O.store plan k) :=
      (queries_run O hchecked k).mono fun _ => not_relational_of_raises hg ht hdeclared
    obtain ⟨ending, new, hrun, haccounts⟩ := O.accounted_propagate
      (fun p hp => by cases p <;> first | rfl | cases hp) hqueries q.context ambient mode h
    refine ⟨reworded q ending, new, by simp only [hrun], fun e he p hp heq => ?_⟩
    obtain ⟨e₀, he₀, rfl⟩ := exists_of_error?_reworded he
    have hmessage := heq ▸ Problem.take_message_of_relational hp
    have hfinal := finalError_of_relational hmessage
    rw [hfinal] at hmessage ⊢
    obtain ⟨x, hx, hrefusal⟩ | ⟨p', hp', rfl⟩ := haccounts.blamed e₀ he₀
    · exact ⟨x, hx, hrefusal⟩
    · exact absurd hmessage (Problem.take_message_ne hp')

/-- A person is fetched with the boss and the reports, and nothing is out of range. -/
theorem executeIn_strict_staff :
    let g : Engine := ⟨⟨[staff]⟩, .default⟩
    let s := (server staffTable).store
    let q : Query := ⟨"staff", .fetch, "2", 0, none, [], ["boss", "reports"], [], none, "", "", "",
      [], false, .background⟩
    let strict := Strict.executeIn (.panic "out of range") s g q none .current
    Registry.build [staff] = .ok g.registry ∧ strict = g.executeIn s q none .current ∧
      ((strict.on []).1 matches .ok (.done (.entity _))) = true := by
  intro g s q strict
  have hbuild : Registry.build [staff] = .ok g.registry := rfl
  exact ⟨hbuild, (executeIn_strict hbuild q none .current).1 s _, by decide +kernel⟩

end Engine

end ResourceEngine
