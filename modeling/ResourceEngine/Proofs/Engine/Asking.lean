import ResourceEngine.Engine.Basic
import ResourceEngine.Proofs.Codec.Body
import ResourceEngine.Proofs.Engine.Preparation
import ResourceEngine.Proofs.Statement.StoredRow
import ResourceEngine.Proofs.Store.Accounting

/-!
# What a request asks for

On its transaction a request runs queries and makes no other calls. `Target.Sends` has the
statements that these can be, and `Target.Raises` the problems that can stop the request besides the
answers; `queries_run` says so of every task.
-/

namespace ResourceEngine

/-- What is found on the way although the request has been checked: something is wrong with a row,
with the number of rows, or with the contents of a body. -/
def Problem.arises : Problem → Bool
  | .noRows | .insertReturnedNothing | .countMissing | .columnCount .. | .undecodableColumn ..
  | .malformedJson | .malformedCbor | .cborTooLarge | .malformedField _ | .nullField _
  | .undecodableField .. => true
  | _ => false

/-- What is found on the way is not about the request itself. -/
theorem Problem.kind_of_arises {p : Problem} (h : p.arises = true) :
    p.kind = .notFound ∨ p.kind = .internal := by
  cases p <;> first | exact .inl rfl | exact .inr rfl | cases h

/-- Answers are written in JSON by default. Requests that name no format refer to this, because the
search in a media type goes through the table of cases, which takes the time. -/
theorem MediaFormat.ofAccept_default :
    MediaFormat.ofAccept Config.default.defaultAccept = .ok .json := by
  decide +kernel

/-! ### Rows and bodies -/

namespace Entity

theorem arises_of_assignColumns {e : Entity} {cells : List (Nat × Value)} {p : Problem}
    (h : e.assignColumns cells = .error p) : p.arises = true := by
  fun_induction assignColumns e cells with
  | case1 e => cases h
  | case2 e i v rest hfield ih => exact ih h
  | case3 e i v rest f hfield w hw ih => exact ih h
  | case4 =>
    cases h
    rfl

/-- A row that cannot be read is a problem of what the store has answered. -/
theorem arises_of_ofRow {s : Schema} {projection : List Nat} {row : Row} {p : Problem}
    (h : ofRow s projection row = .error p) : p.arises = true := by
  unfold ofRow at h
  split_ifs at h
  · cases h
    rfl
  · exact arises_of_assignColumns h

/-- Several rows of which one cannot be read are a problem of what the store has answered. -/
theorem arises_of_mapM_ofRow {s : Schema} {projection : List Nat} {rows : List Row} {p : Problem}
    (h : rows.mapM (ofRow s projection) = .error p) : p.arises = true := by
  induction rows with
  | nil => cases h
  | cons row rows ih =>
    rw [List.mapM_cons] at h
    cases hrow : ofRow s projection row with
    | error p' =>
      rw [hrow] at h
      cases h
      exact arises_of_ofRow hrow
    | ok e =>
      rw [hrow] at h
      cases hrows : rows.mapM (ofRow s projection) with
      | error p' =>
        rw [hrows] at h
        cases h
        exact ih hrows
      | ok es =>
        rw [hrows] at h
        cases h

/-- A value that a field does not accept is a problem of the body. -/
theorem arises_of_accept {f : Field} {v : Option Value} {p : Problem}
    (h : accept f v = .error p) : p.arises = true := by
  unfold accept at h
  split at h
  · cases h
    rfl
  · split_ifs at h
    cases h
    rfl
  · split at h
    · cases h
    · cases h
      rfl

/-- A pair of a body that cannot be assigned is a problem of the body. -/
theorem arises_of_assign {e : Entity} {pairs : List BodyPair} {p : Problem}
    (h : (e.assign pairs).2 = .error p) : p.arises = true := by
  fun_induction assign e pairs with
  | case1 e => cases h
  | case2 e name v rest i hi f hf w hw ih => exact ih h
  | case3 e name v rest i hi f hf p' hp' =>
    cases h
    exact arises_of_accept hp'
  | case4 e name v rest hfield ih => exact ih h

end Entity

/-- A body that cannot be parsed is a problem of the body. -/
theorem Body.arises_of_pairs {format : MediaFormat} {body : List UInt8} {p : Problem}
    (h : pairs format body = .error p) : p.arises = true := by
  cases format with
  | form => cases h
  | json =>
    rw [pairs, jsonPairs] at h
    split at h <;> cases h
    rfl
  | cbor =>
    rw [pairs, cborPairs] at h
    split_ifs at h
    · cases h
      rfl
    · split at h <;> cases h
      rfl

/-- A body is refused for its media type or for its contents. -/
theorem Entity.arises_of_decode {e : Entity} {body : List UInt8} {contentType : String}
    {p : Problem} (h : (e.decode body contentType).2 = .error p) :
    p.arises = true ∨ MediaFormat.detect contentType = .error p := by
  unfold decode at h
  cases hformat : MediaFormat.detect contentType with
  | error p' =>
    rw [hformat] at h
    cases h
    exact .inr rfl
  | ok format =>
    rw [hformat] at h
    simp only at h
    cases hpairs : Body.pairs format body with
    | error p' =>
      rw [hpairs] at h
      cases h
      exact .inl (Body.arises_of_pairs hpairs)
    | ok pairs =>
      rw [hpairs] at h
      exact .inl (arises_of_assign h)

/-! ### Requests -/

namespace Target

variable {t : Target} {key : Value} {p : Problem}

/-- A statement for the row with a key needs a primary key of one field, and nothing else. -/
theorem primaryKey_of_whereKey (h : t.whereKey key = .error p) :
    t.resource.primaryKey = .error p := by
  unfold whereKey at h
  cases hkey : t.resource.primaryKey with
  | error p' =>
    rw [hkey] at h
    cases h
    rfl
  | ok pk =>
    rw [hkey] at h
    cases h

/-- A row cannot be selected only where there is no primary key. -/
theorem primaryKey_of_selectOne {projection : List Nat}
    (h : t.selectOne projection key = .error p) : t.resource.primaryKey = .error p := by
  unfold selectOne at h
  cases hkey : t.whereKey key with
  | error p' =>
    rw [hkey] at h
    cases h
    exact primaryKey_of_whereKey hkey
  | ok condition =>
    rw [hkey] at h
    cases h

theorem primaryKey_of_delete (h : t.delete key = .error p) :
    t.resource.primaryKey = .error p := by
  unfold delete at h
  cases hkey : t.whereKey key with
  | error p' =>
    rw [hkey] at h
    cases h
    exact primaryKey_of_whereKey hkey
  | ok condition =>
    rw [hkey] at h
    cases h

/-- A row cannot be updated only where there is no primary key. -/
theorem primaryKey_of_update {e : Entity} (h : t.update e = .error p) :
    t.resource.primaryKey = .error p := by
  cases hkey : t.resource.primaryKey with
  | error p' =>
    unfold update at h
    rw [hkey] at h
    cases h
    rfl
  | ok pk =>
    rw [update_eq hkey] at h
    cases h

end Target

/-- The relations that a task loads. -/
def Task.relations : Task → List Relation
  | .fetchOne _ _ relations | .fetchPage _ _ relations => relations
  | _ => []

/-- The relations that a checked request loads are those that it asks for, and it is a fetch. -/
theorem Engine.Checked.relations {g : Engine} {q : Query} {t : Target} {task : Task}
    (h : g.Checked q t task) {relation : Relation}
    (hrelation : relation ∈ task.relations) :
    q.action = .fetch ∧ relation.name ∈ q.relations ∧
      t.schema.relation? relation.name = some relation := by
  cases h with
  | fetchOne _ hrelations _ haction | fetchPage _ hrelations _ haction =>
    exact ⟨haction, Target.named_of_relations hrelations relation hrelation⟩
  | _ => cases hrelation

/-- The statements of a request: those for its target, and the selections of rows by their keys on
the targets of its relations. -/
inductive Target.Sends (g : Registry) (t : Target) (relations : List Relation) : Sql → Prop where
  | own {others : List String} {sql : Sql} (h : t.Compiled others sql) : Sends g t relations sql
  | related {relation : Relation} (hrelation : relation ∈ relations) {other : Resource}
    (hother : g.lookup? relation.target = some other) (column : String) (keys : List Value) :
    Sends g t relations
      ((Target.make other t.space t.dialect).selectIn other.schema.indices column keys)

/-- The problems of a request that has a target: those that arise on the way, and those against
which a registry, a key and a media type have been checked. -/
inductive Target.Raises (g : Registry) (t : Target) (relations : List Relation) :
    Problem → Prop where
  | arising {p : Problem} (h : p.arises = true) : Raises g t relations p
  | noTarget {relation : Relation} (hrelation : relation ∈ relations)
    (hother : g.lookup? relation.target = none) :
    Raises g t relations (.relationTargetMissing relation.name relation.target)
  | noKey {p : Problem} (h : t.resource.primaryKey = .error p) : Raises g t relations p
  | noRelatedKey {relation : Relation} (hrelation : relation ∈ relations) {field : String}
    (hlink : relation.link = .belongsTo field) {other : Resource}
    (hother : g.lookup? relation.target = some other) {p : Problem}
    (h : other.primaryKey = .error p) : Raises g t relations p
  | noFormat {contentType : String} {p : Problem}
    (h : MediaFormat.detect contentType = .error p) : Raises g t relations p

namespace Engine

variable (O : Oracle) (g : Registry) (t : Target) (k : Connection) {relations : List Relation}

section

variable {sends : Sql → Prop} {raises : Problem → Prop}

/-- A first row is asked for by one query, and the problem is the one for no row. -/
theorem queries_firstRow {sql : Sql} (hsql : sends sql) {p : Problem} (hp : raises p) :
    Queries O sends raises k (firstRow O.store k sql p) := by
  refine (queries_query hsql).bind fun rows => ?_
  cases rows with
  | nil => exact queries_fail hp
  | cons row rows => exact queries_pure row

/-- A written row is asked for by one query, and read. -/
theorem queries_writtenRow {sql : Sql} (hsql : sends sql) {p : Problem} (hp : raises p)
    (harises : ∀ p : Problem, p.arises = true → raises p) :
    Queries O sends raises k (writtenRow O.store t k sql p) :=
  (queries_firstRow O k hsql hp).bind fun _ =>
    queries_ofExcept fun p hp => harises p (Entity.arises_of_ofRow hp)

/-- Related rows are asked for by one query for each chunk of keys. -/
theorem queries_relatedRows {column : String} {keys : List (List Value)}
    (hsql : ∀ chunk ∈ keys, sends (t.selectIn t.schema.indices column chunk))
    (harises : ∀ p : Problem, p.arises = true → raises p) :
    Queries O sends raises k (relatedRows O.store t k column keys) := by
  induction keys with
  | nil => exact queries_pure []
  | cons chunk keys ih =>
    rw [List.forall_mem_cons] at hsql
    refine (queries_query hsql.1).bind fun rows => ?_
    refine (queries_ofExcept fun p hp => harises p (Entity.arises_of_mapM_ofRow hp)).bind
      fun found => ?_
    exact (ih hsql.2).bind fun others => queries_pure _

/-- A count is asked for by one query. -/
theorem queries_fetchCount {sql : Sql} (hsql : sends sql) (hcount : raises .countMissing) :
    Queries O sends raises k (fetchCount O.store k sql) := by
  refine (queries_query hsql).bind fun rows => ?_
  split
  · exact queries_pure _
  · exact queries_fail hcount

end

section Loading

variable {sends : Sql → Prop} (hrelated : ∀ relation ∈ relations, ∀ other,
  g.lookup? relation.target = some other → ∀ column keys, keys.length ≤ keysPerQuery →
    sends ((Target.make other t.space t.dialect).selectIn other.schema.indices column keys))

include hrelated

/-- A relation is loaded by the queries for its target. -/
theorem queries_loadRelation {relation : Relation} (hrelation : relation ∈ relations)
    (entities : List Entity) :
    Queries O sends (t.Raises g relations) k
      (loadRelation O.store g t k relation entities) := by
  unfold loadRelation
  cases hother : g.lookup? relation.target with
  | none => exact queries_fail (.noTarget hrelation hother)
  | some other =>
    have hrows (column : String) (keys : List Value) : Queries O sends (t.Raises g relations) k
        (relatedRows O.store (Target.make other t.space t.dialect) k column (keyChunks keys)) :=
      queries_relatedRows O (Target.make other t.space t.dialect) k
        (fun chunk hchunk =>
          hrelated relation hrelation other hother column chunk (length_le_of_mem_chunks hchunk))
        fun _ => .arising
    cases hlink : relation.link with
    | belongsTo field =>
      exact queries_ofExcept_bind (fun p => .noRelatedKey hrelation hlink hother) fun key _ =>
        (hrows _ _).bind fun related => queries_pure _
    | hasMany field =>
      exact queries_ofExcept_bind (fun p => .noKey) fun key _ =>
        (hrows _ _).bind fun related => queries_pure _

/-- Relations are loaded by the queries for their targets. -/
theorem queries_loadRelations {loaded : List Relation} (hloaded : ∀ r ∈ loaded, r ∈ relations)
    (entities : List Entity) :
    Queries O sends (t.Raises g relations) k
      (loadRelations O.store g t k loaded entities) := by
  induction loaded generalizing entities with
  | nil => cases entities <;> exact queries_pure _
  | cons relation loaded ih =>
    cases entities with
    | nil => exact queries_pure []
    | cons e es =>
      rw [List.forall_mem_cons] at hloaded
      exact (queries_loadRelation O g t k hrelated hloaded.1 (e :: es)).bind (ih hloaded.2)

/-- One row is fetched by its own query and those for its relations. -/
theorem queries_fetchOne {loaded : List Relation} (hloaded : ∀ r ∈ loaded, r ∈ relations)
    {key : Value} {projection : List Nat}
    (hown : ∀ sql, t.selectOne projection key = .ok sql → sends sql) :
    Queries O sends (t.Raises g relations) k
      (fetchOne O.store g t k key projection loaded) := by
  refine queries_ofExcept_bind (fun p hp => ?_) fun sql hsql => ?_
  · exact .noKey (Target.primaryKey_of_selectOne hp)
  refine (queries_firstRow O k (hown sql hsql) (.arising rfl)).bind fun row => ?_
  refine (queries_ofExcept fun p hp => .arising (Entity.arises_of_ofRow hp)).bind fun e => ?_
  refine (queries_loadRelations O g t k hrelated hloaded [e]).bind fun loaded => ?_
  cases loaded <;> exact queries_pure _

/-- A page is fetched by a count, a selection and the queries for its relations. -/
theorem queries_fetchPage {loaded : List Relation} (hloaded : ∀ r ∈ loaded, r ∈ relations)
    {p : PageSelection} (projection : List Nat) (hcount : sends p.count)
    (hselect : sends p.select) :
    Queries O sends (t.Raises g relations) k
      (fetchPage O.store g t k p projection loaded) := by
  refine (queries_fetchCount O k hcount (.arising rfl)).bind fun count => ?_
  by_cases hzero : count = 0
  · rw [if_pos hzero]
    exact queries_pure _
  · rw [if_neg hzero]
    refine (queries_query hselect).bind fun rows => ?_
    refine (queries_ofExcept fun p hp => .arising (Entity.arises_of_mapM_ofRow hp)).bind
      fun entities => ?_
    exact (queries_loadRelations O g t k hrelated hloaded entities).bind fun slice =>
      queries_pure _

end Loading

/-- What loads a relation is among what the target sends. -/
theorem Target.Sends.loads (g : Registry) (t : Target) (relations : List Relation) :
    ∀ relation ∈ relations, ∀ other, g.lookup? relation.target = some other →
      ∀ column keys, keys.length ≤ keysPerQuery → t.Sends g relations
        ((Target.make other t.space t.dialect).selectIn other.schema.indices column keys) :=
  fun _ hrelation _ hother column keys _ => .related hrelation hother column keys

theorem queries_create (e : Entity) :
    Queries O (t.Sends g relations) (t.Raises g relations) k (create O.store t k e) :=
  queries_writtenRow O t k (.own (.insert e)) (.arising rfl) fun _ => .arising

theorem queries_replace (e : Entity) :
    Queries O (t.Sends g relations) (t.Raises g relations) k (replace O.store t k e) := by
  refine queries_ofExcept_bind (fun p hp => ?_) fun sql hsql => ?_
  · exact .noKey (Target.primaryKey_of_update hp)
  · exact queries_writtenRow O t k (.own (.update hsql)) (.arising rfl) fun _ => .arising

/-- A row that is updated in part is read first, and then written. -/
theorem queries_partialUpdate (key : Value) (body : List UInt8) (contentType : String) :
    Queries O (t.Sends g relations) (t.Raises g relations) k
      (partialUpdate O.store g t k key body contentType) := by
  refine queries_ofExcept_bind (fun p => .noKey) fun pk _ => ?_
  refine (queries_fetchOne O g t k (Target.Sends.loads g t relations) (List.forall_mem_nil _)
    fun sql hsql => .own (.selectOne hsql)).bind fun stored => ?_
  refine (queries_ofExcept fun p hp => ?_).bind fun _ => queries_replace O g t k _
  exact (Entity.arises_of_decode hp).elim .arising .noFormat

theorem queries_delete (key : Value) :
    Queries O (t.Sends g relations) (t.Raises g relations) k (delete O.store t k key) := by
  refine queries_ofExcept_bind (fun p hp => ?_) fun sql hsql => ?_
  · exact .noKey (Target.primaryKey_of_delete hp)
  · exact queries_writtenRow O t k (.own (.delete hsql)) (.arising rfl) fun _ => .arising

/-- What a checked request does on its transaction: it runs queries, which are statements for its
target and for those of its relations. -/
theorem queries_run {g : Engine} {q : Query} {plan : Plan}
    (hchecked : g.Checked q plan.target plan.task) (k : Connection) :
    Queries O (plan.target.Sends g.registry plan.task.relations)
      (plan.target.Raises g.registry plan.task.relations) k (g.run O.store plan k) := by
  obtain ⟨t, task⟩ := plan
  unfold run
  cases hchecked with
  | fetchOne =>
    exact (queries_fetchOne O g.registry t k (Target.Sends.loads _ t _) (fun _ => id)
      fun sql hsql => .own (.selectOne hsql)).map Output.entity
  | fetchPage _ _ hpage =>
    obtain ⟨hselect, hcount, -⟩ := Target.select_and_count_of_page hpage
    exact (queries_fetchPage O g.registry t k (Target.Sends.loads _ t _) (fun _ => id) _
      (.own (.count hcount)) (.own (.select hselect))).map Output.page
  | create => exact (queries_create O g.registry t k _).map Output.entity
  | replace => exact (queries_replace O g.registry t k _).map Output.entity
  | partialUpdate => exact (queries_partialUpdate O g.registry t k _ _ _).map Output.entity
  | delete => exact (queries_delete O g.registry t k _).map Output.entity

/-- What becomes of the ending of a call where the message of a missing row names the key. -/
def reworded (q : Query) : Except Stop (Outcome Output) → Except Stop (Outcome Output)
  | .ok (.done output) => .ok (.done output)
  | .ok (.absorbed e) => .ok (.absorbed (finalError q e))
  | .error (.error e) => .error (.error (finalError q e))
  | .error (.panic message) => .error (.panic message)

/-- An output is never reworded. -/
theorem eq_of_reworded {q : Query} {ending : Except Stop (Outcome Output)} {output : Output}
    (h : reworded q ending = .ok (.done output)) : ending = .ok (.done output) := by
  rcases ending with (e | message) | (output' | e) <;> cases h
  rfl

/-- How a request goes under a propagation. -/
theorem executeIn_on {σ : Type} (g : Engine) (s : Store σ) (q : Query) (ambient : Option Connection)
    (mode : Propagation) (t : σ) :
    (g.executeIn s q ambient mode).on t =
      match g.prepare s.dialect q with
      | .error p => (.error (.error (finalError q p.error)), t)
      | .ok plan =>
        (reworded q ((s.propagate q.context ambient mode (g.run s plan)).on t).1,
          ((s.propagate q.context ambient mode (g.run s plan)).on t).2) := by
  rw [executeIn]
  cases g.prepare s.dialect q with
  | error p => rfl
  | ok plan =>
    simp only [Work.on_bind, Work.on_attempt]
    rcases (s.propagate q.context ambient mode (g.run s plan)).on t with
      ⟨(e | message) | (output | e), u⟩ <;> rfl

end Engine

end ResourceEngine
