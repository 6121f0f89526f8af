import ResourceEngine.Proofs.Engine.Asking

/-!
# Why a request is refused

The check of a request fails for what is wrong with the request, of kind bad request or forbidden,
or for what is found in its body. Where the registry was built, each relation can be joined, so
nothing else can go wrong: a problem of the model itself is never the reason.
-/

namespace ResourceEngine

open ResourceEngine.Filter (Op Operand lowerPredicate)

/-- Every problem that the result can be is of this sort. -/
def FailsWith {α : Type} (P : Problem → Prop) (r : Except Problem α) : Prop :=
  ∀ p, r = .error p → P p

section

variable {α β : Type} {P Q : Problem → Prop}

theorem failsWith_ok (a : α) : FailsWith P (.ok a) := fun _ h => nomatch h

theorem failsWith_error {p : Problem} (hp : P p) : FailsWith P (.error p : Except Problem α) := by
  rintro _ ⟨⟩
  exact hp

/-- A problem of the narrower sort is one of the wider sort. -/
theorem FailsWith.mono {r : Except Problem α} (hr : FailsWith P r) (h : ∀ p, P p → Q p) :
    FailsWith Q r := fun p hp => h p (hr p hp)

/-- A sequence fails with what its parts fail with. -/
theorem FailsWith.bind {r : Except Problem α} {f : α → Except Problem β} (hr : FailsWith P r)
    (hf : ∀ a, r = .ok a → FailsWith P (f a)) : FailsWith P (r >>= f) := by
  cases r with
  | error p => exact failsWith_error (hr p rfl)
  | ok a => exact hf a rfl

/-- A function that is run along a list fails with what it fails with somewhere. -/
theorem FailsWith.mapM {f : α → Except Problem β} (hf : ∀ a, FailsWith P (f a)) (as : List α) :
    FailsWith P (as.mapM f) := by
  induction as with
  | nil => exact failsWith_ok []
  | cons a as ih =>
    rw [List.mapM_cons]
    exact (hf a).bind fun b _ => ih.bind fun bs _ => failsWith_ok _

end

/-- The request itself is wrong. -/
def Problem.IsBad (p : Problem) : Prop := p.kind = .badRequest

/-- More values would be bound than the dialect allows. -/
def Problem.isExcess : Problem → Bool
  | .tooManyParams .. => true
  | _ => false

/-- The request itself is wrong, whatever the number of its values. -/
structure Problem.IsFault (p : Problem) : Prop where
  isBad : p.IsBad
  not_excess : p.isExcess = false

/-- The model itself is wrong: a relation names a target or a field that is not there. -/
def Problem.isRelational : Problem → Bool
  | .relationTargetMissing .. | .relationFieldMissing .. => true
  | _ => false

/-- The wording tells. -/
theorem Problem.take_message_of_relational {p : Problem} (hp : p.isRelational = true) :
    p.message.toList.take 3 = ['r', 'e', 'l'] := by
  unfold Problem.message
  cases p <;> first | (cases hp; done) | simp [String.toList_append, toString]

/-- No other problem has that wording. -/
theorem Problem.take_message_ne {p : Problem} (hp : p.isRelational = false) :
    p.message.toList.take 3 ≠ ['r', 'e', 'l'] := by
  unfold Problem.message
  cases p <;> first | (cases hp; done) | simp [String.toList_append, toString]

/-- What is wrong with a request is not wrong with the model. -/
theorem Problem.IsBad.not_relational {p : Problem} (hp : p.IsBad) : p.isRelational = false := by
  cases p <;> first | rfl | cases hp

/-- What arises from a body or a row is not wrong with the model. -/
theorem Problem.not_relational_of_arises {p : Problem} (hp : p.arises = true) :
    p.isRelational = false := by
  cases p <;> first | rfl | cases hp

/-! ### Filters -/

namespace Filter

variable {f : Field} {op : Op} {operand : Operand}

theorem failsWith_scalarOf : FailsWith Problem.IsFault (scalarOf f op operand) := by
  cases operand with
  | scalar v => exact failsWith_ok v
  | list vs => exact failsWith_error ⟨rfl, rfl⟩

theorem failsWith_listOf : FailsWith Problem.IsFault (listOf f op operand) := by
  cases operand with
  | scalar v => exact failsWith_error ⟨rfl, rfl⟩
  | list vs => exact failsWith_ok vs

/-- A value is refused for a field as a fault of the request. -/
theorem failsWith_coerceFor (v : Value) : FailsWith Problem.IsFault (coerceFor f op v) := by
  unfold coerceFor
  split
  · exact failsWith_ok _
  · exact failsWith_error ⟨rfl, rfl⟩

/-- An operand is refused as a pattern for a fault of the request. -/
theorem failsWith_patternOf : FailsWith Problem.IsFault (patternOf f op operand) := by
  unfold patternOf
  split
  · exact failsWith_ok _
  · exact failsWith_error ⟨rfl, rfl⟩
  · next p hp => exact failsWith_error (failsWith_scalarOf p hp)

/-- A predicate is refused for a fault of the request. -/
theorem failsWith_lowerPredicate (d : Dialect) :
    FailsWith Problem.IsFault (lowerPredicate d f op operand) := by
  cases op with
  | isNull | isNotNull => exact failsWith_ok _
  | isIn | notIn =>
    refine failsWith_listOf.bind fun vs _ => ?_
    cases vs with
    | nil => exact failsWith_ok _
    | cons v vs => exact (FailsWith.mapM failsWith_coerceFor _).bind fun ws _ => failsWith_ok _
  | like | notLike | ilike | notIlike | unaccentIlike | notUnaccentIlike =>
    exact failsWith_patternOf.bind fun pattern _ => failsWith_ok _
  | similar | notSimilar =>
    refine failsWith_patternOf.bind fun pattern _ => ?_
    simp only
    split
    · exact failsWith_error ⟨rfl, rfl⟩
    · exact failsWith_ok _
  | eq | neq | gt | gte | lt | lte =>
    exact failsWith_scalarOf.bind fun v _ => (failsWith_coerceFor v).bind fun w _ => failsWith_ok _

variable {s : Schema} {resource : String} {d : Dialect}

mutual

/-- A filter is refused for a fault of the request. -/
theorem failsWith_lower (f : Filter) : FailsWith Problem.IsFault (lower s resource d f) := by
  cases f with
  | group c children =>
    intro p hp
    rw [lower] at hp
    cases hall : lowerAll s resource d children with
    | error p' =>
      rw [hall] at hp
      cases hp
      exact failsWith_lowerAll children p hall
    | ok parts =>
      rw [hall] at hp
      cases hp
  | predicate attr op operand =>
    intro p hp
    rw [lower] at hp
    split at hp
    · cases hp
      exact ⟨rfl, rfl⟩
    · split at hp
      · cases hp
      · next p' hpredicate =>
        cases hp
        exact failsWith_lowerPredicate d p hpredicate

theorem failsWith_lowerAll (fs : List Filter) :
    FailsWith Problem.IsFault (lowerAll s resource d fs) := by
  cases fs with
  | nil => exact failsWith_ok []
  | cons f fs =>
    intro p hp
    rw [lowerAll] at hp
    split at hp
    · next p' hlower =>
      cases hp
      exact failsWith_lower f p hlower
    · split at hp
      · next p' hall =>
        cases hp
        exact failsWith_lowerAll fs p hall
      · cases hp

end

end Filter

/-! ### Statements -/

namespace Target

variable {t : Target}

theorem failsWith_primaryKey : FailsWith Problem.IsFault t.resource.primaryKey := by
  unfold Resource.primaryKey Schema.primaryKey
  split
  · exact failsWith_ok _
  · exact failsWith_error ⟨rfl, rfl⟩
  · exact failsWith_error ⟨rfl, rfl⟩

theorem failsWith_project (found : List Nat) (names : List String) :
    FailsWith Problem.IsFault (t.project found names) := by
  induction names generalizing found with
  | nil => exact failsWith_ok found
  | cons name names ih =>
    rw [project]
    split
    · exact ih _
    · exact failsWith_error ⟨rfl, rfl⟩

/-- Fields are refused by name, as a fault of the request. -/
theorem failsWith_projection (fields : List String) :
    FailsWith Problem.IsFault (t.projection fields) := by
  unfold Target.projection
  split_ifs
  · exact failsWith_ok _
  · exact failsWith_project [] fields

/-- A key is refused as a fault of the request. -/
theorem failsWith_parseKey (key : String) : FailsWith Problem.IsFault (t.parseKey key) := by
  refine failsWith_primaryKey.bind fun pk _ => ?_
  simp only
  split
  · exact failsWith_ok _
  · exact failsWith_error ⟨rfl, rfl⟩

theorem failsWith_whereClause (filter : Option Filter) :
    FailsWith Problem.IsFault (t.whereClause filter) := by
  cases filter with
  | none => exact failsWith_ok []
  | some f =>
    refine (Filter.failsWith_lower f).bind fun part _ => ?_
    cases part <;> exact failsWith_ok _

/-- An order is refused for a field in it, as a fault of the request. -/
theorem failsWith_orderBy (sort : List SortTerm) : FailsWith Problem.IsFault (t.orderBy sort) := by
  cases sort with
  | nil => exact failsWith_ok []
  | cons s sort =>
    refine (FailsWith.mapM (fun s => ?_) _).bind fun terms _ => failsWith_ok _
    unfold sortTerm
    split
    · exact failsWith_error ⟨rfl, rfl⟩
    · exact failsWith_ok _

/-- A page is refused for its filter, its order or the number of its values. -/
theorem failsWith_page (projection : List Nat) (filter : Option Filter) (w : Window) :
    FailsWith Problem.IsBad (t.page projection filter w) := by
  have hselect : FailsWith Problem.IsFault (t.select projection filter w) :=
    (failsWith_whereClause filter).bind fun _ _ =>
      (failsWith_orderBy w.sort).bind fun _ _ => failsWith_ok _
  have hcount : FailsWith Problem.IsFault (t.count filter) :=
    (failsWith_whereClause filter).bind fun _ _ => failsWith_ok _
  refine (hselect.mono fun _ => (·.isBad)).bind fun select _ => ?_
  simp only
  split_ifs
  · exact failsWith_error rfl
  · exact (hcount.mono fun _ => (·.isBad)).bind fun _ _ => failsWith_ok _

/-- Where every declared relation can be joined, only the names of a request can be wrong. -/
theorem failsWith_resolve
    (hjoin : ∀ relation ∈ t.schema.relations, ∃ i, t.joinIndex relation = .ok i)
    (found : List Relation) (projection : List Nat) (names : List String) :
    FailsWith Problem.IsFault (t.resolve found projection names).1 := by
  induction names generalizing found projection with
  | nil => exact failsWith_ok found
  | cons name names ih =>
    rw [resolve]
    split
    · exact failsWith_error ⟨rfl, rfl⟩
    next relation hrelation =>
    obtain ⟨i, hi⟩ := hjoin relation (List.mem_of_find?_eq_some hrelation)
    rw [hi]
    split_ifs
    · exact ih found projection
    · exact ih _ _

/-- A relation of a registry that was built is joined on a field of its own resource. -/
theorem exists_joinIndex {g : Registry} (hg : g.Consistent) (ht : t.resource ∈ g.resources)
    {relation : Relation} (hrelation : relation ∈ t.schema.relations) :
    ∃ i < t.schema.fields.length, t.joinIndex relation = .ok i := by
  obtain ⟨i, hi⟩ : ∃ i, t.joinIndex relation = .ok i := by
    unfold joinIndex
    cases hlink : relation.link with
    | belongsTo field =>
      obtain ⟨i, hi⟩ :=
        Schema.exists_fieldIndex?_of_check (hg.schemas t.resource ht) hrelation hlink
      exact ⟨i, by simp only [schema, hi]⟩
    | hasMany field =>
      obtain ⟨other, -, hkey⟩ :=
        Registry.checkRelation_eq_ok_iff.1 (hg.relations t.resource ht relation hrelation)
      rw [hlink] at hkey
      obtain ⟨pk, hpk⟩ := Schema.exists_primaryKey_of_hasSingleKey hkey.2 t.resource.name
      exact ⟨pk.2, by simp only [Resource.primaryKey, hpk, Except.map]⟩
  exact ⟨i, lt_of_joinIndex hi, hi⟩

end Target

/-! ### Requests -/

namespace Engine

variable {g : Engine} {q : Query} {t : Target}

/-- The request is wrong, or it is forbidden, or something is wrong with its body. -/
def IsRefusal (p : Problem) : Prop := p.IsBad ∨ p.kind = .forbidden ∨ p.arises = true

theorem isRefusal_of_isFault {p : Problem} (hp : p.IsFault) : IsRefusal p := .inl hp.isBad

/-- No refusal is about the model itself. -/
theorem IsRefusal.not_relational {p : Problem} (hp : IsRefusal p) : p.isRelational = false := by
  obtain hp | hp | hp := hp
  · exact hp.not_relational
  · cases p <;> first | rfl | cases hp
  · exact Problem.not_relational_of_arises hp

theorem failsWith_detect (contentType : String) :
    FailsWith Problem.IsFault (MediaFormat.detect contentType) := by
  unfold MediaFormat.detect
  split
  · exact failsWith_ok _
  · exact failsWith_error ⟨rfl, rfl⟩

theorem failsWith_ofAccept (accept : String) :
    FailsWith Problem.IsFault (MediaFormat.ofAccept accept) := by
  unfold MediaFormat.ofAccept
  split <;> first | exact failsWith_ok _ | exact failsWith_error ⟨rfl, rfl⟩

/-- A body is refused for what it says, or for its media type. -/
theorem failsWith_decodeBody (r : Resource) : FailsWith IsRefusal (g.decodeBody r q) := by
  refine FailsWith.bind (fun p hp => ?_) fun _ _ => failsWith_ok _
  exact (Entity.arises_of_decode hp).elim (fun h => .inr (.inr h))
    fun h => isRefusal_of_isFault (failsWith_detect _ p h)

/-- A fetch is refused for what is asked for. -/
theorem failsWith_fetchTask
    (hjoin : ∀ relation ∈ t.schema.relations, ∃ i, t.joinIndex relation = .ok i) :
    FailsWith Problem.IsBad (g.fetchTask t q) := by
  have hbad (p : Problem) (hp : p.IsFault) : p.IsBad := hp.isBad
  refine ((Target.failsWith_projection q.fields).mono hbad).bind fun selected _ => ?_
  refine ((Target.failsWith_resolve hjoin [] selected q.relations).mono hbad).bind
    fun relations _ => ?_
  by_cases hkeyed : q.keyed = true
  · rw [if_pos hkeyed]
    exact ((Target.failsWith_parseKey q.key).mono hbad).bind fun key _ => failsWith_ok _
  · rw [if_neg hkeyed]
    exact (Target.failsWith_page _ _ _).bind fun page _ => failsWith_ok _

/-- A task is refused for what is asked for, or for the body. -/
theorem failsWith_task
    (hjoin : ∀ relation ∈ t.schema.relations, ∃ i, t.joinIndex relation = .ok i) :
    FailsWith IsRefusal (g.task t q) := by
  have hparse : FailsWith IsRefusal (t.parseKey q.key) :=
    (Target.failsWith_parseKey q.key).mono fun _ => isRefusal_of_isFault
  unfold task
  cases q.action with
  | fetch => exact (failsWith_fetchTask hjoin).mono fun _ => .inl
  | create => exact (failsWith_decodeBody _).bind fun e _ => failsWith_ok _
  | replace =>
    have hkey : FailsWith IsRefusal t.resource.primaryKey :=
      Target.failsWith_primaryKey.mono fun _ => isRefusal_of_isFault
    refine hparse.bind fun key _ => hkey.bind fun pk _ => ?_
    exact (failsWith_decodeBody _).bind fun e _ => failsWith_ok _
  | partialUpdate =>
    refine ((failsWith_detect _).mono fun _ => isRefusal_of_isFault).bind fun format _ => ?_
    exact hparse.bind fun key _ => failsWith_ok _
  | delete => exact hparse.bind fun key _ => failsWith_ok _

/-- Before its task a request is refused for a fault, or it is forbidden. -/
theorem failsWith_check : FailsWith (fun p => p.IsFault ∨ p.kind = .forbidden) (g.check q) := by
  unfold check
  split_ifs
  · exact failsWith_error (.inl ⟨rfl, rfl⟩)
  split
  · exact failsWith_error (.inl ⟨rfl, rfl⟩)
  next r _ =>
    have hkey : FailsWith Problem.IsFault (checkKey q) := by
      unfold checkKey
      cases q.action <;> cases q.keyed <;>
        first | exact failsWith_ok _ | exact failsWith_error ⟨rfl, rfl⟩
    refine (hkey.mono fun _ => .inl).bind fun _ _ => ?_
    refine ((failsWith_ofAccept (g.accept q)).mono fun _ => .inl).bind fun _ _ => ?_
    split_ifs
    · exact failsWith_ok r
    · exact failsWith_error (.inr rfl)

/-- A request on a registry that was built is refused for what is wrong with it or its body. -/
theorem failsWith_prepare (hg : g.registry.Consistent) (d : Dialect) :
    FailsWith IsRefusal (g.prepare d q) := by
  rw [prepare_eq_check]
  refine (failsWith_check.mono fun p hp => ?_).bind fun r hcheck => ?_
  · exact hp.elim isRefusal_of_isFault fun h => .inr (.inl h)
  · have hr := Registry.mem_of_lookup? (check_eq_ok_iff.1 hcheck).2.1
    rw [map_eq_pure_bind]
    refine (failsWith_task fun relation hrelation => ?_).bind fun task _ => failsWith_ok _
    obtain ⟨i, -, hi⟩ :=
      Target.exists_joinIndex (t := Target.make r (g.space q) d) hg hr hrelation
    exact ⟨i, hi⟩

end Engine

end ResourceEngine
