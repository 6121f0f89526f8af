import Mathlib.Data.List.Forall2
import Mathlib.Tactic.FinCases
import ResourceEngine.Proofs.Engine.Decoding
import ResourceEngine.Proofs.Statement.Projection
import ResourceEngine.Proofs.Store.Finishing

/-!
# Relations are joins

Related rows are looked up by sets of keys, a chunk of the distinct ones at a time, and handed out
by key. The specification is the nested loop: for each parent the rows of the target are gone
through in the order of the table, and a null key matches none. Where the store answers lookups from
a table, the two agree for any number of parents and keys.
-/

namespace ResourceEngine

namespace Engine

/-! ### Distinct keys -/

section Keys

variable {found vs : List Value} {v : Value}

/-- Values that are the same are both null or both not. -/
theorem isNull_of_same {u : Value} (h : u.same v = true) : u.isNull = v.isNull := by
  cases u <;> cases v <;> first | rfl | simp [Value.same] at h

/-- No distinct key is null. -/
theorem isNull_of_mem_distinct (hfound : ∀ w ∈ found, w.isNull = false) :
    ∀ w ∈ distinct found vs, w.isNull = false := by
  fun_induction distinct found vs with
  | case1 found => simpa using hfound
  | case2 found w vs h ih => exact ih hfound
  | case3 found w vs h ih =>
    simp only [Bool.or_eq_true, not_or, Bool.not_eq_true] at h
    exact ih (List.forall_mem_cons.2 ⟨h.1, hfound⟩)

/-- No key is there twice. -/
theorem pairwise_distinct (hfound : found.reverse.Pairwise fun v w => v.same w = false) :
    (distinct found vs).Pairwise fun v w => v.same w = false := by
  fun_induction distinct found vs with
  | case1 found => exact hfound
  | case2 found w vs h ih => exact ih hfound
  | case3 found w vs h ih =>
    simp only [Bool.or_eq_true, not_or, List.any_eq_true, not_exists, not_and] at h
    refine ih ?_
    rw [List.reverse_cons, List.pairwise_append]
    refine ⟨hfound, List.pairwise_singleton _ _, fun u hu x hx => ?_⟩
    obtain rfl := List.mem_singleton.1 hx
    rw [Value.same_comm]
    exact Bool.eq_false_iff.2 (h.2 u (List.mem_reverse.1 hu))

/-- What has been found stays among the distinct keys. -/
theorem subset_distinct : found ⊆ distinct found vs := by
  fun_induction distinct found vs with
  | case1 found => exact fun w hw => List.mem_reverse.2 hw
  | case2 found w vs h ih => exact ih
  | case3 found w vs h ih => exact fun u hu => ih (List.mem_cons_of_mem _ hu)

/-- Every value but a null and a NaN is represented. -/
theorem exists_same_of_mem (hv : v ∈ vs) (hnull : v.isNull = false) (hself : v.same v = true) :
    ∃ key ∈ distinct found vs, key.same v = true := by
  fun_induction distinct found vs with
  | case1 found => cases hv
  | case2 found w vs h ih =>
    rcases List.mem_cons.1 hv with rfl | hv
    · rw [hnull, Bool.false_or, List.any_eq_true] at h
      obtain ⟨key, hkey, hsame⟩ := h
      exact ⟨key, subset_distinct hkey, by rwa [Value.same_comm]⟩
    · exact ih hv
  | case3 found w vs h ih =>
    rcases List.mem_cons.1 hv with rfl | hv
    · exact ⟨v, subset_distinct List.mem_cons_self, hself⟩
    · exact ih hv

/-- The chunks of keys are the distinct keys, in order. -/
theorem flatten_keyChunks (keys : List Value) : (keyChunks keys).flatten = distinct [] keys :=
  flatten_chunks (by decide) _ _ (Nat.le_refl _)

end Keys

/-! ### Rows by keys -/

/-- The value is the key, which is not null. -/
def joins (w : Option Value) (key : Value) : Bool := !key.isNull && matched w (some key)

section Lookup

variable (entities : List Entity) (get : Entity → Option Value)

/-- The rows with one of the keys, in the order of the table. -/
def having (keys : List Value) : List Entity :=
  entities.filter fun r => keys.any fun key => matched (get r) (some key)

variable {entities get} {v : Value}

/-- Two keys that one value matches are the same. -/
theorem same_of_matched {w : Option Value} {u : Value} (hu : matched w (some u) = true)
    (hv : matched w (some v) = true) : u.same v = true := by
  cases w with
  | none => cases hu
  | some w =>
    have hcomm : u.same w = true := by rwa [Value.same_comm]
    exact Value.same_trans hcomm hv

/-- A value that matches a key matches the same keys. -/
theorem matched_of_same {w : Option Value} {u : Value} (hu : matched w (some u) = true)
    (h : u.same v = true) : matched w (some v) = true := by
  cases w with
  | none => cases hu
  | some w => exact Value.same_trans hu h

/-- Of the rows with one of the keys, those with the value are all there are if the value is among
the keys. -/
theorem filter_having_of_any {keys : List Value} (h : keys.any (·.same v) = true) :
    (having entities get keys).filter (fun r => matched (get r) (some v)) =
      entities.filter fun r => matched (get r) (some v) := by
  obtain ⟨key, hkey, hsame⟩ := List.any_eq_true.1 h
  rw [having, List.filter_filter]
  refine List.filter_congr fun r _ => ?_
  by_cases hr : matched (get r) (some v) = true
  · have hcomm : v.same key = true := by rwa [Value.same_comm]
    have hany : (keys.any fun key => matched (get r) (some key)) = true :=
      List.any_eq_true.2 ⟨key, hkey, matched_of_same hr hcomm⟩
    rw [hr, hany, Bool.and_self]
  · rw [Bool.eq_false_iff.2 hr, Bool.false_and]

/-- Of the rows with one of the keys none has a value that is not among the keys. -/
theorem filter_having_of_not_any {keys : List Value} (h : keys.any (·.same v) = false) :
    (having entities get keys).filter (fun r => matched (get r) (some v)) = [] := by
  refine List.filter_eq_nil_iff.2 fun r hr hmatched => ?_
  obtain ⟨key, hkey, hr⟩ := List.any_eq_true.1 (List.mem_filter.1 hr).2
  have hany : keys.any (·.same v) = true :=
    List.any_eq_true.2 ⟨key, hkey, same_of_matched hr hmatched⟩
  rw [h] at hany
  cases hany

/-- However distinct keys are split into chunks, the rows with a value come from one chunk. -/
theorem filter_flatMap_having {cs : List (List Value)}
    (hcs : cs.flatten.Pairwise fun v w => v.same w = false) :
    (cs.flatMap (having entities get)).filter (fun r => matched (get r) (some v)) =
      if cs.flatten.any (·.same v) then entities.filter fun r => matched (get r) (some v)
      else [] := by
  induction cs with
  | nil => rfl
  | cons keys cs ih =>
    rw [List.flatten_cons, List.pairwise_append] at hcs
    obtain ⟨-, htail, hcross⟩ := hcs
    rw [List.flatMap_cons, List.filter_append, ih htail, List.flatten_cons, List.any_append]
    -- The value is in the first chunk or not; if it is, distinct keys keep it out of the others.
    cases hkeys : keys.any (·.same v) with
    | false => rw [filter_having_of_not_any hkeys, List.nil_append, Bool.false_or]
    | true =>
      have hrest : cs.flatten.any (·.same v) = false := by
        by_contra hany
        obtain ⟨u, hu, husame⟩ := List.any_eq_true.1 (Bool.not_eq_false _ ▸ hany)
        obtain ⟨w, hw, hwsame⟩ := List.any_eq_true.1 hkeys
        have hcomm : v.same u = true := by rwa [Value.same_comm]
        have hboth := Value.same_trans hwsame hcomm
        rw [hcross w hw u hu] at hboth
        cases hboth
      rw [filter_having_of_any hkeys, hrest, Bool.true_or, if_pos rfl]
      simp

/-- What is looked up for a key among others is what the nested loop finds for it. -/
theorem filter_lookup {keys : List Value} (hv : v ∈ keys) :
    ((keyChunks keys).flatMap (having entities get)).filter
        (fun r => matched (get r) (some v)) =
      entities.filter fun r => joins (get r) v := by
  have hpairwise : (keyChunks keys).flatten.Pairwise fun v w => v.same w = false := by
    rw [flatten_keyChunks]
    exact pairwise_distinct List.Pairwise.nil
  rw [filter_flatMap_having hpairwise, flatten_keyChunks]
  -- A value that is not represented among the distinct keys is null or a NaN, which the nested loop
  -- does not match either.
  cases hany : (distinct [] keys).any (·.same v) with
  | true =>
    obtain ⟨key, hkey, hsame⟩ := List.any_eq_true.1 hany
    have hkeynull := isNull_of_mem_distinct (List.forall_mem_nil _) key hkey
    have hnull : v.isNull = false := by rw [← isNull_of_same hsame, hkeynull]
    simp [joins, hnull]
  | false =>
    rw [if_neg Bool.false_ne_true, eq_comm, List.filter_eq_nil_iff]
    intro r _ hr
    rw [joins, Bool.and_eq_true, Bool.not_eq_true'] at hr
    have hself : v.same v = true := same_of_matched hr.2 hr.2
    obtain ⟨key, hkey, hsame⟩ : ∃ key ∈ distinct [] keys, key.same v = true :=
      exists_same_of_mem hv hr.1 hself
    rw [List.any_eq_false] at hany
    exact hany key hkey hsame

end Lookup

end Engine

/-! ### Tables -/

namespace Work

variable {σ α β : Type}

/-- From whichever state, the work ends with the value. -/
def Yields (w : Work σ α) (a : α) : Prop := ∀ t, ∃ u, w.on t = (.ok a, u)

theorem yields_pure (a : α) : (pure a : Work σ α).Yields a := fun t => ⟨t, rfl⟩

theorem yields_ofExcept {r : Except Problem α} {a : α} (h : r = .ok a) :
    (ofExcept r : Work σ α).Yields a := by
  rw [h]
  exact yields_pure a

/-- A sequence of work that succeeds comes to the value of its last part. -/
theorem Yields.bind {w : Work σ α} {f : α → Work σ β} {a : α} {b : β} (hw : w.Yields a)
    (hf : (f a).Yields b) : (w >>= f).Yields b := by
  intro t
  obtain ⟨u, hu⟩ := hw t
  rw [on_bind, hu]
  exact hf u

end Work

/-- The rows of a table, in order, and the entities that they are decoded to. -/
structure Table (s : Schema) where
  rows : List (Row × Entity)
  decoded : ∀ p ∈ rows, Entity.ofRow s s.indices p.1 = .ok p.2

namespace Table

def entities {s : Schema} (table : Table s) : List Entity := table.rows.map (·.2)

/-- The rows whose decoded value in a column is one of the keys. -/
def lookup {s : Schema} (table : Table s) (column : String) (keys : List Value) :
    List (Row × Entity) :=
  table.rows.filter fun p => keys.any fun key => Engine.matched (p.2.get? column) (some key)

/-- An entity of a table has the schema of the table. -/
theorem schema_of_mem {s : Schema} {table : Table s} {r : Entity} (hr : r ∈ table.entities) :
    r.schema = s := by
  obtain ⟨p, hp, rfl⟩ := List.mem_map.1 hr
  exact (Entity.frame_ofRow (table.decoded p hp)).1

end Table

namespace Engine

variable {σ : Type} {s : Store σ} {g : Registry} {t : Target} {k : Connection}

/-- Asked for the rows with one of some keys in a column, the store answers from the table. -/
def Serves (s : Store σ) (k : Connection) (t : Target) (table : Table t.schema) : Prop :=
  ∀ column ∈ t.schema.columns, ∀ keys : List Value, (∀ v ∈ keys, v.isNull = false) →
    keys.length ≤ keysPerQuery →
      (s.query k (t.selectIn t.schema.indices column keys)).Yields
        ((table.lookup column keys).map (·.1))

/-- Rows of a table are read as their entities. -/
theorem mapM_decoded {schema : Schema} {rows : List (Row × Entity)}
    (h : ∀ p ∈ rows, Entity.ofRow schema schema.indices p.1 = .ok p.2) :
    (rows.map (·.1)).mapM (Entity.ofRow schema schema.indices) = .ok (rows.map (·.2)) := by
  induction rows with
  | nil => rfl
  | cons p rows ih =>
    rw [List.forall_mem_cons] at h
    rw [List.map_cons, List.mapM_cons, h.1, ih h.2]
    rfl

/-- Chunk by chunk, the rows come that have one of the keys. -/
theorem yields_relatedRows {table : Table t.schema} (h : Serves s k t table) {column : String}
    (hcolumn : column ∈ t.schema.columns) {cs : List (List Value)}
    (hnull : ∀ keys ∈ cs, ∀ v ∈ keys, v.isNull = false)
    (hlength : ∀ keys ∈ cs, keys.length ≤ keysPerQuery) :
    (relatedRows s t k column cs).Yields
      (cs.flatMap (having table.entities (·.get? column))) := by
  induction cs with
  | nil => exact Work.yields_pure []
  | cons keys cs ih =>
    rw [List.forall_mem_cons] at hnull hlength
    refine (h column hcolumn keys hnull.1 hlength.1).bind ?_
    have hrows : ∀ p ∈ table.lookup column keys,
        Entity.ofRow t.schema t.schema.indices p.1 = .ok p.2 :=
      fun p hp => table.decoded p (List.mem_of_mem_filter hp)
    refine (Work.yields_ofExcept (mapM_decoded hrows)).bind ?_
    refine (ih hnull.2 hlength.2).bind ?_
    rw [List.flatMap_cons, having, Table.entities, List.filter_map]
    exact Work.yields_pure _

/-- The rows that are looked up for all of the keys. -/
theorem yields_lookup {table : Table t.schema} (h : Serves s k t table) {column : String}
    (hcolumn : column ∈ t.schema.columns) {get : Entity → Option Value}
    (hget : ∀ r ∈ table.entities, r.get? column = get r) (keys : List Value) :
    (relatedRows s t k column (keyChunks keys)).Yields
      ((keyChunks keys).flatMap (having table.entities get)) := by
  have hcongr : having table.entities (·.get? column) = having table.entities get := by
    funext keys
    exact List.filter_congr fun r hr => by simp only [hget r hr]
  rw [← hcongr]
  refine yields_relatedRows h hcolumn (fun chunk hchunk v hv => ?_) fun chunk hchunk =>
    length_le_of_mem_chunks hchunk
  have hmem : v ∈ (keyChunks keys).flatten := List.mem_flatten_of_mem hchunk hv
  rw [flatten_keyChunks] at hmem
  exact isNull_of_mem_distinct (List.forall_mem_nil _) v hmem

/-! ### The nested loop -/

section Join

variable (g t) (tables : ∀ r : Resource, Table r.schema) (projection : List Nat)

/-- What the nested loop relates to a row that was read with the projection; nothing, unless the row
was read with the field that the relation is joined on. -/
def joined? (row : Row) (relation : Relation) : Option Related := do
  let other ← g.lookup? relation.target
  match relation.link with
  | .belongsTo field =>
    let i ← t.schema.fieldIndex? field
    let key ← t.schema.readAt? projection row i
    let (_, j) ← other.primaryKey.toOption
    return .one ((tables other).entities.find? fun r => joins (r.getAt? j) key)
  | .hasMany field =>
    let (_, i) ← t.resource.primaryKey.toOption
    let key ← t.schema.readAt? projection row i
    return .many ((tables other).entities.filter fun r => joins (r.get? field) key)

/-- The entity is that of the row, with the relations that the nested loop finds for it. -/
structure Joined (relations : List Relation) (p : Row × Entity) (e : Entity) : Prop where
  schema : e.schema = p.2.schema
  values : e.values = p.2.values
  relations : List.Forall₂
    (fun relation entry => entry.1 = relation.name ∧
      joined? g t tables projection p.1 relation = some entry.2)
    relations e.relations

end Join

variable {tables : ∀ r : Resource, Table r.schema} {projection : List Nat}

/-- A new relation comes last. -/
theorem putRelation_of_not_mem {name : String} {entries : List (String × Related)}
    (h : name ∉ entries.map (·.1)) (r : Related) :
    Entity.putRelation name r entries = entries ++ [(name, r)] := by
  induction entries with
  | nil => rfl
  | cons entry entries ih =>
    rw [List.map_cons, List.mem_cons, not_or] at h
    have hne : (entry.1 == name) = false := beq_eq_false_iff_ne.2 (Ne.symm h.1)
    rw [Entity.putRelation, hne, if_neg Bool.false_ne_true, ih h.2, List.cons_append]

/-- A relation that the nested loop finds may be added to an entity that is joined. -/
theorem Joined.setRelation {relations : List Relation} {p : Row × Entity} {e : Entity}
    (h : Joined g t tables projection relations p e) {relation : Relation} {related : Related}
    (hname : relation.name ∉ relations.map (·.name))
    (hrelated : joined? g t tables projection p.1 relation = some related) :
    Joined g t tables projection (relations ++ [relation]) p
      (e.setRelation relation.name related) := by
  have hnames : e.relations.map (·.1) = relations.map (·.name) := by
    rw [← List.forall₂_eq_eq_eq, List.forall₂_map_left_iff, List.forall₂_map_right_iff]
    exact h.relations.flip.imp fun _ _ hentry => hentry.1
  refine ⟨h.schema, h.values, ?_⟩
  show List.Forall₂ _ _ (Entity.putRelation _ _ _)
  rw [putRelation_of_not_mem (hnames ▸ hname)]
  exact List.rel_append h.relations (.cons ⟨rfl, hrelated⟩ .nil)

/-- The value that a parent holds at a position it was read with. -/
theorem exists_key {relations : List Relation} {p : Row × Entity} {e : Entity}
    (h : Joined g t tables projection relations p e)
    (hp : Entity.ofRow t.schema projection p.1 = .ok p.2)
    (hprojection : t.schema.IsProjection projection) {i : Nat} (hi : i ∈ projection) :
    ∃ key, t.schema.readAt? projection p.1 i = some key ∧ e.getAt? i = some key := by
  obtain ⟨key, hread, hkey⟩ :=
    Entity.exists_readAt?_of_ofRow hp hprojection.nodup hi (hprojection.lt i hi)
  rw [Entity.getAt?, ← h.values] at hkey
  exact ⟨key, hread, hkey⟩

/-- A field that is looked up by name is found at its position. -/
theorem get?_of_fieldIndex? {e : Entity} {name : String} {i : Nat} (hschema : e.schema = t.schema)
    (hi : t.schema.fieldIndex? name = some i) : e.get? name = e.getAt? i := by
  rw [Entity.get?, hschema, hi, Option.bind_some]

section Parents

variable {parents : List (Row × Entity)} {relations : List Relation} {entities : List Entity}
  {relation : Relation} {other : Resource} {field : String} {i : Nat}

/-- The row that a parent is given is the one that the nested loop finds. -/
theorem joined_attachOne {p : Row × Entity} {e : Entity} {pk : Field} {j : Nat}
    (h : Joined g t tables projection relations p e)
    (hp : Entity.ofRow t.schema projection p.1 = .ok p.2)
    (hprojection : t.schema.IsProjection projection) (hi : i ∈ projection) (he : e ∈ entities)
    (hname : relation.name ∉ relations.map (·.name))
    (hother : g.lookup? relation.target = some other) (hlink : relation.link = .belongsTo field)
    (hfield : t.schema.fieldIndex? field = some i) (hkey : other.primaryKey = .ok (pk, j)) :
    Joined g t tables projection (relations ++ [relation]) p
      (attachOne relation field j
        ((keyChunks (entities.filterMap (·.get? field))).flatMap
          (having (tables other).entities (·.getAt? j))) e) := by
  obtain ⟨key, hread, hvalue⟩ := exists_key h hp hprojection hi
  have hschema : e.schema = t.schema := h.schema.trans (Entity.frame_ofRow hp).1
  have hget : e.get? field = some key := by rw [get?_of_fieldIndex? hschema hfield, hvalue]
  have hmem : key ∈ entities.filterMap (·.get? field) := List.mem_filterMap.2 ⟨e, he, hget⟩
  refine h.setRelation hname ?_
  rw [hget, ← List.head?_filter, filter_lookup hmem, List.head?_filter]
  simp [joined?, hother, hlink, hfield, hread, hkey, Except.toOption]

/-- The rows that a parent is given are those that the nested loop finds. -/
theorem joined_attachMany {p : Row × Entity} {e : Entity} {pk : Field}
    (h : Joined g t tables projection relations p e)
    (hp : Entity.ofRow t.schema projection p.1 = .ok p.2)
    (hprojection : t.schema.IsProjection projection) (hi : i ∈ projection) (he : e ∈ entities)
    (hname : relation.name ∉ relations.map (·.name))
    (hother : g.lookup? relation.target = some other) (hlink : relation.link = .hasMany field)
    (hkey : t.resource.primaryKey = .ok (pk, i)) :
    Joined g t tables projection (relations ++ [relation]) p
      (attachMany relation field i
        ((keyChunks (entities.filterMap (·.getAt? i))).flatMap
          (having (tables other).entities (·.get? field))) e) := by
  obtain ⟨key, hread, hvalue⟩ := exists_key h hp hprojection hi
  have hmem : key ∈ entities.filterMap (·.getAt? i) := List.mem_filterMap.2 ⟨e, he, hvalue⟩
  refine h.setRelation hname ?_
  rw [hvalue, filter_lookup hmem]
  simp [joined?, hother, hlink, hread, hkey, Except.toOption]

/-- What is done to each entity beside its own row. -/
theorem forall₂_map_of_joined {more : List Relation}
    (h : List.Forall₂ (Joined g t tables projection relations) parents entities)
    {attach : Entity → Entity}
    (hattach : ∀ p e, p ∈ parents → e ∈ entities → Joined g t tables projection relations p e →
      Joined g t tables projection more p (attach e)) :
    List.Forall₂ (Joined g t tables projection more) parents (entities.map attach) := by
  obtain ⟨hlength, hzip⟩ := List.forall₂_iff_zip.1 h
  rw [List.forall₂_map_right_iff, List.forall₂_iff_zip]
  refine ⟨hlength, fun hmem => ?_⟩
  obtain ⟨hp, he⟩ := List.of_mem_zip hmem
  exact hattach _ _ hp he (hzip hmem)

/-- Loading a relation adds to each parent what the nested loop finds for it. -/
theorem exists_yields_loadRelation (hg : g.Consistent) (ht : t.resource ∈ g.resources)
    (hprojection : t.schema.IsProjection projection)
    (hparents : ∀ p ∈ parents, Entity.ofRow t.schema projection p.1 = .ok p.2)
    (h : List.Forall₂ (Joined g t tables projection relations) parents entities)
    (hrelation : relation ∈ t.schema.relations) (hname : relation.name ∉ relations.map (·.name))
    (hi : i ∈ projection) (hjoin : t.joinIndex relation = .ok i)
    (hserves : ∀ other, g.lookup? relation.target = some other →
      Serves s k (Target.make other t.space t.dialect) (tables other)) :
    ∃ loaded, (loadRelation s g t k relation entities).Yields loaded ∧
      List.Forall₂ (Joined g t tables projection (relations ++ [relation])) parents loaded := by
  obtain ⟨other, hother, hlink⟩ :=
    Registry.checkRelation_eq_ok_iff.1 (hg.relations t.resource ht relation hrelation)
  have hnodup := Schema.nodup_columns_of_check (hg.schemas other (Registry.mem_of_lookup? hother))
  -- The two kinds of links differ in whose primary key is needed, and in the column that the rows
  -- are looked up by.
  cases hkind : relation.link with
  | belongsTo field =>
    rw [hkind] at hlink
    obtain ⟨⟨pk, j⟩, hkey⟩ := Schema.exists_primaryKey_of_hasSingleKey hlink other.name
    have hfield := Target.fieldIndex?_of_joinIndex hkind hjoin
    have hcolumn : other.schema.columns[j]? = some pk.name := by
      rw [Schema.getElem?_columns, (Schema.getElem?_of_primaryKey hkey).1, Option.map_some]
    have hindex := Schema.fieldIndex?_of_nodup hnodup hcolumn
    refine ⟨_, ?_, forall₂_map_of_joined h fun p e hp he hjoined =>
      joined_attachOne hjoined (hparents p hp) hprojection hi he hname hother hkind hfield hkey⟩
    unfold loadRelation
    rw [hother, hkind]
    refine (Work.yields_ofExcept hkey).bind ?_
    refine (yields_lookup (hserves other hother) (List.mem_of_getElem? hcolumn) ?_ _).bind
      (Work.yields_pure _)
    intro r hr
    exact get?_of_fieldIndex? (t := Target.make other t.space t.dialect) (Table.schema_of_mem hr)
      hindex
  | hasMany field =>
    rw [hkind] at hlink
    obtain ⟨pk, hkey⟩ := Target.primaryKey_of_joinIndex hkind hjoin
    obtain ⟨j, hj⟩ : ∃ j, other.schema.fieldIndex? field = some j := by
      have hforeign : (other.schema.field? field).isSome = true := hlink.1
      rw [Schema.field?_eq] at hforeign
      exact Option.isSome_iff_exists.1 (Option.isSome_of_isSome_bind hforeign)
    refine ⟨_, ?_, forall₂_map_of_joined h fun p e hp he hjoined =>
      joined_attachMany hjoined (hparents p hp) hprojection hi he hname hother hkind hkey⟩
    unfold loadRelation
    rw [hother, hkind]
    refine (Work.yields_ofExcept hkey).bind ?_
    have hcolumn := List.mem_of_getElem? (Schema.getElem?_of_fieldIndex? hj)
    exact (yields_lookup (hserves other hother) hcolumn (fun r _ => rfl) _).bind
      (Work.yields_pure _)

/-- Relations are loaded one after the other; each finds those before it joined. -/
theorem exists_yields_loadRelations (hg : g.Consistent) (ht : t.resource ∈ g.resources)
    {done relations : List Relation} (hresolved : t.Resolved (done ++ relations) projection)
    (hparents : ∀ p ∈ parents, Entity.ofRow t.schema projection p.1 = .ok p.2)
    (h : List.Forall₂ (Joined g t tables projection done) parents entities)
    (hserves : ∀ r ∈ relations, ∀ other, g.lookup? r.target = some other →
      Serves s k (Target.make other t.space t.dialect) (tables other)) :
    ∃ loaded, (loadRelations s g t k relations entities).Yields loaded ∧
      List.Forall₂ (Joined g t tables projection (done ++ relations)) parents loaded := by
  -- By induction on the relations that are left, with those done so far in the invariant.
  induction relations generalizing done entities with
  | nil =>
    rw [List.append_nil]
    cases entities <;> exact ⟨_, Work.yields_pure _, h⟩
  | cons relation relations ih =>
    cases h with
    | nil => exact ⟨[], Work.yields_pure [], .nil⟩
    | cons hjoined hrest =>
      have hmem : relation ∈ done ++ relation :: relations := by simp
      have hname : relation.name ∉ done.map (·.name) := by
        intro hseen
        have hnodup := hresolved.nodup
        rw [List.map_append, List.nodup_append] at hnodup
        exact hnodup.2.2 _ hseen _ List.mem_cons_self rfl
      obtain ⟨i, hi, hjoin⟩ := hresolved.read relation hmem
      rw [List.forall_mem_cons] at hserves
      obtain ⟨loaded, hyields, hloaded⟩ := exists_yields_loadRelation hg ht
        hresolved.isProjection hparents (.cons hjoined hrest) (hresolved.declared relation hmem)
        hname hi hjoin hserves.1
      rw [List.append_cons] at hresolved ⊢
      obtain ⟨final, hfinal, hjoins⟩ := ih hresolved hloaded hserves.2
      exact ⟨final, hyields.bind hfinal, hjoins⟩

/-- Relations are joins. Whichever fields and relations a request names, loading the relations of
the entities of rows that were read for it succeeds, and gives each the related rows that the nested
loop over the tables finds. -/
theorem exists_yields_join {definitions : List Resource} (hg : Registry.build definitions = .ok g)
    (ht : t.resource ∈ g.resources) {fields names : List String} {selected : List Nat}
    (hfields : t.projection fields = .ok selected)
    (hrelations : t.relations selected names = (.ok relations, projection))
    (hserves : ∀ r ∈ relations, ∀ other, g.lookup? r.target = some other →
      Serves s k (Target.make other t.space t.dialect) (tables other))
    (hparents : ∀ p ∈ parents, Entity.ofRow t.schema projection p.1 = .ok p.2) :
    ∃ loaded, (loadRelations s g t k relations (parents.map (·.2))).Yields loaded ∧
      List.Forall₂ (Joined g t tables projection relations) parents loaded := by
  have hstart : List.Forall₂ (Joined g t tables projection []) parents (parents.map (·.2)) := by
    rw [List.forall₂_map_right_iff, List.forall₂_same]
    intro p hp
    refine ⟨rfl, rfl, ?_⟩
    rw [(Entity.frame_ofRow (hparents p hp)).2.1]
    exact .nil
  have hresolved : t.Resolved ([] ++ relations) projection :=
    Target.resolved_of_relations hfields hrelations
  exact exists_yields_loadRelations (Registry.consistent_of_build hg) ht hresolved hparents hstart
    hserves

end Parents

/-! ### A store that serves a table -/

/-- The names in a statement. -/
def namesIn (sql : Sql) : List String :=
  sql.filterMap fun
    | .ident name => some name
    | _ => none

/-- A store that takes the last name in a query for a column and what it binds for keys. -/
def server {schema : Schema} (table : Table schema) : Oracle :=
  { Oracle.accepting [] with
    query := fun _ _ sql =>
      .ok ((table.lookup ((namesIn sql).getLastD "") (Sql.params sql)).map (·.1)) }

/-- There are no names among parameters. -/
theorem namesIn_paramList (keys : List Value) : namesIn (Sql.paramList keys) = [] := by
  induction keys with
  | nil => rfl
  | cons key keys ih =>
    cases keys with
    | nil => rfl
    | cons key' keys => simpa [namesIn, Sql.paramList, Sql.join] using ih

/-- The store answers lookups from the table. -/
theorem serves_server (t : Target) (table : Table t.schema) (k : Connection) :
    Serves (server table).store k t table := by
  intro column hcolumn keys hnull hlength h
  have hkeys : Sql.params (t.selectIn t.schema.indices column keys) = keys := by
    simp [Target.selectIn, Target.selectFrom, Target.columns, Target.table]
  have hlast : (namesIn (t.selectIn t.schema.indices column keys)).getLastD "" = column := by
    have hnames := namesIn_paramList keys
    unfold namesIn at hnames
    simp [namesIn, Target.selectIn, Sql.parens, hnames]
  obtain ⟨u, hanswer⟩ : ∃ u,
      ((server table).store.query k (t.selectIn t.schema.indices column keys)).on h =
        (.ok ((table.lookup ((namesIn (t.selectIn t.schema.indices column keys)).getLastD "")
          (Sql.params (t.selectIn t.schema.indices column keys))).map (·.1)), u) := ⟨_, rfl⟩
  rw [hkeys, hlast] at hanswer
  exact ⟨u, hanswer⟩

/-- People whose managers are in the same table. -/
def staff : Resource where
  name := "staff"
  schema :=
    { table := "staff"
      fields :=
        [⟨"id", .integer, false, true, true⟩, ⟨"name", .text, false, false, false⟩,
          ⟨"manager", .integer, true, false, false⟩]
      relations :=
        [⟨"boss", "staff", .belongsTo "manager"⟩, ⟨"reports", "staff", .hasMany "manager"⟩] }
  actions := ActionSet.all

def staffTable : Table staff.schema where
  rows :=
    [([.integer 1, .text "ann", .null], .mk staff.schema [.integer 1, .text "ann", .null] []),
      ([.integer 2, .text "bob", .integer 1],
        .mk staff.schema [.integer 2, .text "bob", .integer 1] []),
      ([.integer 3, .text "cid", .integer 1],
        .mk staff.schema [.integer 3, .text "cid", .integer 1] [])]
  decoded := by
    simp only [List.forall_mem_cons]
    exact ⟨rfl, rfl, rfl, List.forall_mem_nil _⟩

/-- The tables of a registry with no resource but the staff. -/
def staffTables (r : Resource) : Table r.schema :=
  if h : r = staff then h ▸ staffTable else ⟨[], List.forall_mem_nil _⟩

/-- The people as a request for their names reads them. -/
def staffParents : List (Row × Entity) :=
  [([.text "ann", .null, .integer 1], .mk staff.schema [.integer 1, .text "ann", .null] []),
    ([.text "bob", .integer 1, .integer 2],
      .mk staff.schema [.integer 2, .text "bob", .integer 1] [])]

/-- The names of two people are read, and then the boss of each and whom each is the boss of. -/
theorem exists_yields_join_staff :
    let t := Target.make staff none .sqlite
    let g : Registry := ⟨[staff]⟩
    ∃ loaded,
      (loadRelations (server staffTable).store g t ⟨1⟩ staff.schema.relations
        (staffParents.map (·.2))).Yields loaded ∧
      List.Forall₂ (Joined g t staffTables [1, 2, 0] staff.schema.relations) staffParents
        loaded := by
  intro t g
  have hbuild : Registry.build [staff] = .ok g := rfl
  have hfields : t.projection ["name"] = .ok [1] := rfl
  have hrelations : t.relations [1] ["boss", "reports"] =
      (.ok staff.schema.relations, [1, 2, 0]) := rfl
  refine exists_yields_join hbuild List.mem_cons_self hfields hrelations ?_ ?_
  · intro r hr other hother
    have htarget : r.target = "staff" := by
      fin_cases hr <;> rfl
    rw [htarget] at hother
    obtain rfl : staff = other := Option.some.inj hother
    have htable : staffTables staff = staffTable := dif_pos rfl
    rw [htable]
    exact serves_server t staffTable ⟨1⟩
  · unfold staffParents
    simp only [List.forall_mem_cons]
    exact ⟨rfl, rfl, List.forall_mem_nil _⟩

end Engine

end ResourceEngine
