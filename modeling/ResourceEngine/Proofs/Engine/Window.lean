import ResourceEngine.Proofs.Engine.Commitment
import ResourceEngine.Proofs.Engine.Join
import ResourceEngine.Proofs.Statement.Clauses

/-!
# Windows of pages

A page is read with two statements: one counts the rows that a filter matches, and the other selects
a window of them by the literals of its clauses. The store finds the literals in the statement, as
`cut?` does, and refuses what its dialect does not allow. What the literals leave is the window that
was asked for, at every offset and limit, although they are signed and the numbers are not.
-/

namespace ResourceEngine

/-- The rows from the offset on, at most as many as the limit. A limit of zero is no limit. -/
def windowed {α : Type} (offset limit : UInt64) (rows : List α) : List α :=
  if limit = 0 then rows.drop offset.toNat else (rows.drop offset.toNat).take limit.toNat

/-- A window has no more rows than its limit. -/
theorem length_windowed_le {α : Type} {limit : UInt64} (hlimit : limit ≠ 0) (offset : UInt64)
    (rows : List α) : (windowed offset limit rows).length ≤ limit.toNat := by
  rw [windowed, if_neg hlimit]
  exact List.length_take_le _ _

/-! ### Literals of clauses -/

namespace Sql

/-- The literal that a clause consists of, if the statement has the clause; nothing, if the clause
is anything else. -/
def bound? (word : Token) (sql : Sql) : Option (Option Int) :=
  match clause? word sql with
  | none => some none
  | some [.number n] => some (some n.toInt)
  | some _ => none

end Sql

/-- The dialect allows the limit and the offset in one statement. SQLite has an offset only after a
limit, and PostgreSQL allows no negative numbers. -/
def Dialect.allows (d : Dialect) (limit offset : Option Int) : Bool :=
  match d with
  | .sqlite => offset.isNone || limit.isSome
  | .postgresql => limit.all (0 ≤ ·) && offset.all (0 ≤ ·)

/-- What a selection gives of the rows that it finds, unless the dialect refuses it: the offset is
skipped first, and a negative limit is none. -/
def cut? (d : Dialect) (sql : Sql) (rows : List Row) : Option (List Row) := do
  let limit ← Sql.bound? .LIMIT sql
  let offset ← Sql.bound? .OFFSET sql
  if d.allows limit offset then
    let rest := rows.drop (offset.getD 0).toNat
    return match limit with
      | some n => if n < 0 then rest else rest.take n.toNat
      | none => rest
  else none

namespace Target

open Sql

/-- A literal is the number, or the largest signed one if that is less. -/
theorem exists_literal (n : UInt64) :
    ∃ m : Int64, literal n = .number m ∧ m.toInt = min n.toNat (2 ^ 63 - 1) := by
  have hmax : Int64.maxValue.toUInt64.toNat = 2 ^ 63 - 1 := rfl
  by_cases h : n ≤ Int64.maxValue.toUInt64
  · refine ⟨n.toInt64, by rw [literal, if_pos h], ?_⟩
    rw [UInt64.le_iff_toNat_le, hmax] at h
    have hvalue : n.toInt64.toInt = n.toNat :=
      BitVec.toInt_eq_toNat_of_lt (x := n.toBitVec) (by rw [UInt64.toNat_toBitVec]; omega)
    omega
  · refine ⟨Int64.maxValue, by rw [literal, if_neg h], ?_⟩
    rw [UInt64.le_iff_toNat_le, hmax] at h
    have hvalue : Int64.maxValue.toInt = 2 ^ 63 - 1 := rfl
    omega

variable {t : Target} {projection : List Nat} {filter : Option Filter} {w : Window}
  {p : PageSelection} {condition order : Sql}

/-- The literals of a page leave the window of the rows, and both dialects allow them. -/
theorem Paged.cut?_select (h : t.Paged projection filter w p condition order) {rows : List Row}
    (hrows : rows.length < 2 ^ 63) :
    cut? t.dialect p.select rows = some (windowed w.offset w.limit rows) := by
  obtain ⟨m, hm, hmvalue⟩ := exists_literal w.limit
  obtain ⟨n, hn, hnvalue⟩ := exists_literal w.offset
  -- No list is so long that it makes a difference which of the numbers are clamped.
  have hskip : rows.drop n.toNatClampNeg = rows.drop w.offset.toNat := by
    rw [List.drop_eq_drop_iff, ← Int64.toNat_toInt]
    omega
  have htake (rest : List Row) (hrest : rest.length ≤ rows.length) :
      rest.take m.toNatClampNeg = rest.take w.limit.toNat := by
    rw [List.take_eq_take_iff, ← Int64.toNat_toInt]
    omega
  have hpositive : ¬m.toInt < 0 := by omega
  have hmallowed : 0 ≤ m.toInt := by omega
  have hnallowed : 0 ≤ n.toInt := by omega
  obtain ⟨hlimit, hoffset⟩ := clause?_paginate t.dialect w.offset w.limit
  rw [← h.clause?_window (.inl rfl), hm] at hlimit
  rw [← h.clause?_window (.inr rfl), hn] at hoffset
  unfold cut? bound? windowed
  rw [hlimit, hoffset]
  cases t.dialect <;> by_cases hl : w.limit = 0 <;> by_cases ho : w.offset = 0 <;>
    simp [hl, ho, Dialect.allows, hskip, htake, hpositive, hmallowed, hnallowed]

/-- A limit that is resolved is written as a number from one up to it. -/
theorem Paged.exists_limit (h : t.Paged projection filter w p condition order)
    (hlimit : w.limit ≠ 0) :
    ∃ n : Int64, clause? .LIMIT p.select = some [.number n] ∧ 1 ≤ n.toInt ∧
      n.toInt ≤ w.limit.toNat := by
  obtain ⟨n, hn, hvalue⟩ := exists_literal w.limit
  refine ⟨n, ?_, ?_⟩
  · rw [h.clause?_window (.inl rfl), (clause?_paginate _ _ _).1, if_neg hlimit, hn]
  · have hpositive : w.limit.toNat ≠ 0 := fun hzero => hlimit (UInt64.toNat_inj.1 hzero)
    omega

end Target

/-! ### Work that succeeds -/

namespace Work

variable {σ α β : Type} {P : α → Prop} {Q : β → Prop} {w : Work σ α} {f : α → Work σ β}

/-- From whichever state, the work ends with a value of this sort. -/
def Succeeds (P : α → Prop) (w : Work σ α) : Prop := ∀ t, ∃ a u, w.on t = (.ok a, u) ∧ P a

theorem Yields.succeeds {a : α} (hw : w.Yields a) (ha : P a) : w.Succeeds P := by
  intro t
  obtain ⟨u, hu⟩ := hw t
  exact ⟨a, u, hu, ha⟩

theorem succeeds_pure {a : α} (ha : P a) : (pure a : Work σ α).Succeeds P :=
  (yields_pure a).succeeds ha

theorem succeeds_ofExcept {r : Except Problem α} {a : α} (hr : r = .ok a) (ha : P a) :
    (ofExcept r : Work σ α).Succeeds P :=
  (yields_ofExcept hr).succeeds ha

/-- A sequence of work succeeds if each part does with what the one before has given. -/
theorem Succeeds.bind (hw : w.Succeeds P) (hf : ∀ a, P a → (f a).Succeeds Q) :
    (w >>= f).Succeeds Q := by
  intro t
  obtain ⟨a, u, hu, ha⟩ := hw t
  rw [on_bind, hu]
  exact hf a ha u

end Work

/-- The store opens and finishes transactions for the context, which is not done at any moment. -/
structure Store.Steady {σ : Type} (s : Store σ) (c : Context) : Prop where
  live : ∀ t, c.isDone (s.moment t) = false
  connect : ∀ t, ∃ k u, (s.connect c).run t = (.ok k, u)
  control : ∀ k x t, ∃ u, (s.control k x).run t = (.ok (), u)

/-- Where a transaction does not fail, it succeeds as the work in it does. -/
theorem Store.Steady.runOwned {σ α : Type} {s : Store σ} {c : Context} (hs : s.Steady c)
    {P : α → Prop} {f : Connection → Work σ α} (hf : ∀ k, (f k).Succeeds P) :
    (s.runOwned c f).Succeeds P := by
  have hlive (t : σ) : c.problem? (s.moment t) = none := by
    rw [← Option.not_isSome_iff_eq_none, Context.isSome_problem?, hs.live t]
    exact Bool.false_ne_true
  intro t
  obtain ⟨k, t₁, hconnect⟩ := hs.connect t
  obtain ⟨t₂, hbegin⟩ := hs.control k .begin t₁
  obtain ⟨a, t₃, hrun, ha⟩ := hf k t₂
  obtain ⟨t₄, hcommit⟩ := hs.control k .commit t₃
  refine ⟨a, t₄, ?_, ha⟩
  rw [runOwned_on, begin_on, hlive]
  simp only [hconnect, hbegin, hrun, finish_on, hlive, hcommit]
  rfl

/-! ### Relations of a window -/

namespace Entity

/-- The second entity is the first one after the relations have been loaded for it, in order. -/
structure Loads (relations : List Relation) (e e' : Entity) : Prop where
  schema : e'.schema = e.schema
  values : e'.values = e.values
  names : e'.relations.map (·.1) = relations.map (·.name)

variable {relations : List Relation} {e e' : Entity}

theorem loads_nil (he : e.relations = []) : e.Loads [] e := ⟨rfl, rfl, by rw [he]; rfl⟩

/-- A relation that is new may be loaded next. -/
theorem Loads.setRelation (h : e.Loads relations e') {relation : Relation}
    (hnew : relation.name ∉ relations.map (·.name)) (related : Related) :
    e.Loads (relations ++ [relation]) (e'.setRelation relation.name related) := by
  refine ⟨h.schema, h.values, ?_⟩
  show (putRelation _ _ _).map _ = _
  rw [Engine.putRelation_of_not_mem (h.names ▸ hnew), List.map_append, h.names, List.map_append]
  rfl

/-- Without relations there is nothing to load. -/
theorem Loads.eq_of_nil (h : e.Loads [] e') (he : e.relations = []) : e' = e := by
  obtain ⟨s, values, relations⟩ := e
  obtain ⟨s', values', relations'⟩ := e'
  obtain rfl : s' = s := h.schema
  obtain rfl : values' = values := h.values
  obtain rfl : relations' = [] := List.map_eq_nil_iff.1 h.names
  obtain rfl : relations = [] := he
  rfl

end Entity

namespace Engine

open Work

variable {σ : Type} {s : Store σ} {g : Registry} {t : Target} {k : Connection}

/-- Asked for rows of the target of a relation by keys, the store gives some that can be decoded. -/
def Relates (s : Store σ) (g : Registry) (t : Target) (relations : List Relation) : Prop :=
  ∀ relation ∈ relations, ∀ other, g.lookup? relation.target = some other →
    ∀ k column keys,
      (s.query k ((Target.make other t.space t.dialect).selectIn other.schema.indices column
        keys)).Succeeds fun rows =>
          ∃ es, rows.mapM (Entity.ofRow other.schema other.schema.indices) = .ok es

/-- Related rows can be loaded if each chunk of them can be read. -/
theorem succeeds_relatedRows {column : String}
    (h : ∀ keys, (s.query k (t.selectIn t.schema.indices column keys)).Succeeds fun rows =>
      ∃ es, rows.mapM (Entity.ofRow t.schema t.schema.indices) = .ok es)
    (keys : List (List Value)) :
    (relatedRows s t k column keys).Succeeds fun _ => True := by
  induction keys with
  | nil => exact succeeds_pure trivial
  | cons chunk keys ih =>
    refine (h chunk).bind fun rows ⟨es, hes⟩ => ?_
    refine (succeeds_ofExcept (P := fun _ => True) hes trivial).bind fun found _ => ?_
    exact ih.bind fun _ _ => succeeds_pure trivial

section

variable {parents entities : List Entity} {done relations : List Relation}

/-- A new relation is attached to each entity beside its own parent. -/
theorem forall₂_setRelation (h : List.Forall₂ (Entity.Loads done) parents entities)
    {relation : Relation} (hnew : relation.name ∉ done.map (·.name)) (related : Entity → Related) :
    List.Forall₂ (Entity.Loads (done ++ [relation])) parents
      (entities.map fun e => e.setRelation relation.name (related e)) :=
  List.forall₂_map_right_iff.2 (h.imp fun _ _ hloads => hloads.setRelation hnew _)

/-- A relation can be loaded, and is attached to each parent in place. -/
theorem succeeds_loadRelation (hg : g.Consistent) (ht : t.resource ∈ g.resources)
    {relation : Relation} (hs : Relates s g t [relation])
    (hrelation : relation ∈ t.schema.relations)
    (h : List.Forall₂ (Entity.Loads done) parents entities)
    (hnew : relation.name ∉ done.map (·.name)) :
    (loadRelation s g t k relation entities).Succeeds
      (List.Forall₂ (Entity.Loads (done ++ [relation])) parents) := by
  obtain ⟨other, hother, hlink⟩ :=
    Registry.checkRelation_eq_ok_iff.1 (hg.relations t.resource ht relation hrelation)
  have hrows := hs relation List.mem_cons_self other hother k
  unfold loadRelation
  rw [hother]
  cases hkind : relation.link with
  | belongsTo field =>
    rw [hkind] at hlink
    obtain ⟨pk, hkey⟩ := Schema.exists_primaryKey_of_hasSingleKey hlink other.name
    refine (succeeds_ofExcept (P := (· = pk)) hkey rfl).bind fun _ _ => ?_
    refine (succeeds_relatedRows (hrows _) _).bind fun related _ => ?_
    exact succeeds_pure (forall₂_setRelation h hnew _)
  | hasMany field =>
    rw [hkind] at hlink
    obtain ⟨pk, hkey⟩ := Schema.exists_primaryKey_of_hasSingleKey hlink.2 t.resource.name
    refine (succeeds_ofExcept (P := (· = pk)) hkey rfl).bind fun _ _ => ?_
    refine (succeeds_relatedRows (hrows _) _).bind fun related _ => ?_
    exact succeeds_pure (forall₂_setRelation h hnew _)

/-- Where no lookup fails, loading relations leaves the rows and their order. -/
theorem succeeds_loadRelations (hg : g.Consistent) (ht : t.resource ∈ g.resources)
    (hs : Relates s g t relations) (hrelations : ∀ r ∈ relations, r ∈ t.schema.relations)
    (hnodup : ((done ++ relations).map (·.name)).Nodup)
    (h : List.Forall₂ (Entity.Loads done) parents entities) :
    (loadRelations s g t k relations entities).Succeeds
      (List.Forall₂ (Entity.Loads (done ++ relations)) parents) := by
  induction relations generalizing done entities with
  | nil =>
    rw [List.append_nil]
    cases entities <;> exact succeeds_pure h
  | cons relation relations ih =>
    cases h with
    | nil => exact succeeds_pure .nil
    | cons hloads hrest =>
      have hnew : relation.name ∉ done.map (·.name) := by
        intro hseen
        rw [List.map_append, List.nodup_append] at hnodup
        exact hnodup.2.2 _ hseen _ List.mem_cons_self rfl
      have hone : Relates s g t [relation] := fun r hr =>
        hs r (List.mem_cons.2 (.inl (List.mem_singleton.1 hr)))
      rw [List.forall_mem_cons] at hrelations
      refine (succeeds_loadRelation hg ht hone hrelations.1 (.cons hloads hrest) hnew).bind
        fun loaded hloaded => ?_
      rw [List.append_cons] at hnodup ⊢
      exact ih (fun r hr => hs r (List.mem_cons_of_mem _ hr)) hrelations.2 hnodup hloaded

end

/-! ### Pages -/

/-- The store answers the statements of a page from what it holds. It counts as many rows as the
condition of a statement selects, and from those that the selection finds it gives what the literals
leave. -/
structure Holds (s : Store σ) (p : PageSelection) (number : Option Sql → Nat) (found : List Row) :
    Prop where
  bound : number (Sql.clause? .WHERE p.count) < 2 ^ 63
  length : found.length = number (Sql.clause? .WHERE p.select)
  count : ∀ k, (s.query k p.count).Yields
    [[.integer (Int64.ofNat (number (Sql.clause? .WHERE p.count)))]]
  select : ∀ k rows, cut? s.dialect p.select found = some rows → (s.query k p.select).Yields rows

/-- The page has this count, and the entities in order, with the relations loaded for each. -/
structure IsPage (count : Nat) (offset limit : UInt64) (relations : List Relation)
    (entities : List Entity) (page : Page) : Prop where
  count : page.count.toNat = count
  offset : page.offset = offset
  limit : page.limit = limit
  slice : List.Forall₂ (Entity.Loads relations) entities page.slice

/-- A window of rows, which is selected even if there are none. -/
def selectPage (s : Store σ) (g : Registry) (t : Target) (k : Connection) (p : PageSelection)
    (projection : List Nat) (relations : List Relation) : Work σ Page := do
  let count ← fetchCount s k p.count
  let rows ← s.query k p.select
  let entities ← Work.ofExcept (rows.mapM (Entity.ofRow t.schema projection))
  let slice ← loadRelations s g t k relations entities
  return ⟨slice, p.offset, p.limit, count⟩

/-- A count below half of the range is given as it is. -/
theorem yields_fetchCount {sql : Sql} {n : Nat} (hn : n < 2 ^ 63)
    (h : (s.query k sql).Yields [[.integer (Int64.ofNat n)]]) :
    (fetchCount s k sql).Yields (UInt64.ofNat n) := by
  refine h.bind ?_
  simp only [Int64.toInt_ofNat_of_lt hn, Int.toNat_natCast]
  exact yields_pure _

section

variable {p : PageSelection} {number : Option Sql → Nat} {found : List Row} {offset limit : UInt64}

/-- Where nothing matches, it makes no difference whether a window is selected. -/
theorem ending_selectPage (g : Registry) (t : Target) (k : Connection) (projection : List Nat)
    (relations : List Relation) (hs : Holds s p number found)
    (hcondition : Sql.clause? .WHERE p.count = Sql.clause? .WHERE p.select)
    (hcut : cut? s.dialect p.select found = some (windowed offset limit found)) (u : σ) :
    ((selectPage s g t k p projection relations).on u).1 =
      ((fetchPage s g t k p projection relations).on u).1 := by
  obtain ⟨v, hcount⟩ := yields_fetchCount hs.bound (hs.count k) u
  rw [selectPage, fetchPage, on_bind, on_bind, hcount]
  by_cases hzero : UInt64.ofNat (number (Sql.clause? .WHERE p.count)) = 0
  · have hnone : found = [] := by
      have hvalue := congrArg UInt64.toNat hzero
      rw [UInt64.toNat_ofNat_of_lt' (Nat.lt_trans hs.bound (by decide))] at hvalue
      rw [← List.length_eq_zero_iff, hs.length, ← hcondition, hvalue]
      rfl
    subst hnone
    have hempty : windowed offset limit ([] : List Row) = [] := by simp [windowed]
    rw [hempty] at hcut
    obtain ⟨w, hselect⟩ := hs.select k [] hcut v
    simp only [hzero, if_true, on_bind, hselect]
    cases relations <;> rfl
  · simp only [hzero, if_false]

/-- A page succeeds with the number of the rows and with what its window has been decoded to. -/
theorem succeeds_fetchPage (hg : g.Consistent) (ht : t.resource ∈ g.resources)
    {projection : List Nat} {relations : List Relation}
    (hresolved : t.Resolved relations projection) (hs : Holds s p number found) (hrelates : Relates s g t relations)
    (hcondition : Sql.clause? .WHERE p.count = Sql.clause? .WHERE p.select)
    (hcut : cut? s.dialect p.select found = some (windowed offset limit found))
    {entities : List Entity}
    (hentities : (windowed offset limit found).mapM (Entity.ofRow t.schema projection) =
      .ok entities) :
    (fetchPage s g t k p projection relations).Succeeds
      (IsPage (number (Sql.clause? .WHERE p.count)) p.offset p.limit relations entities) := by
  have hparents : List.Forall₂ (Entity.Loads []) entities entities :=
    List.forall₂_same.2 <| Target.forall_of_mapM
      (fun _ _ hrow => Entity.loads_nil (Entity.frame_ofRow hrow).2.1) hentities
  have hnodup : (([] ++ relations).map Relation.name).Nodup := hresolved.nodup
  have hselected : (selectPage s g t k p projection relations).Succeeds
      (IsPage (number (Sql.clause? .WHERE p.count)) p.offset p.limit relations entities) := by
    have hcount : (fetchCount s k p.count).Succeeds fun n =>
        n.toNat = number (Sql.clause? .WHERE p.count) :=
      (yields_fetchCount hs.bound (hs.count k)).succeeds
        (UInt64.toNat_ofNat_of_lt' (Nat.lt_trans hs.bound (by decide)))
    refine hcount.bind fun n hn => ?_
    refine ((hs.select k _ hcut).succeeds (P := (· = windowed offset limit found)) rfl).bind
      fun rows hrows => ?_
    subst hrows
    refine (succeeds_ofExcept (P := (· = entities)) hentities rfl).bind fun es hes => ?_
    subst hes
    refine (succeeds_loadRelations hg ht hrelates hresolved.declared hnodup hparents).bind
      fun slice hslice => ?_
    exact succeeds_pure ⟨hn, rfl, rfl, hslice⟩
  -- Execution asks for the rows only where there are some, which makes no difference to the page.
  intro u
  obtain ⟨page, v, hrun, hpage⟩ := hselected u
  have hending := ending_selectPage g t k projection relations hs hcondition hcut u
  rw [hrun] at hending
  exact ⟨page, ((fetchPage s g t k p projection relations).on u).2, Prod.ext hending.symm rfl,
    hpage⟩

end

/-- A request for a page goes as reading the page does, if its transaction does not fail. -/
theorem succeeds_execute {g : Engine} {q : Query} {plan : Plan}
    (hplan : g.prepare s.dialect q = .ok plan) {p : PageSelection} {projection : List Nat}
    {relations : List Relation} (htask : plan.task = .fetchPage p projection relations)
    (hs : s.Steady q.context) {P : Page → Prop}
    (hpage : ∀ k, (fetchPage s g.registry plan.target k p projection relations).Succeeds P) :
    (g.execute s q).Succeeds fun output => ∃ page, output = .page page ∧ P page := by
  have hrun (k : Connection) :
      (g.run s plan k).Succeeds fun output => ∃ page, output = .page page ∧ P page := by
    unfold run
    rw [htask]
    exact (hpage k).bind fun page hp => succeeds_pure ⟨page, rfl, hp⟩
  intro u
  obtain ⟨output, v, howned, houtput⟩ := hs.runOwned hrun u
  refine ⟨output, v, ?_, houtput⟩
  rw [execute_on, hplan]
  simp only [howned]

/-- Without relations the slice is what the rows have been decoded to. -/
theorem IsPage.slice_eq {count : Nat} {offset limit : UInt64} {entities : List Entity} {page : Page}
    (h : IsPage count offset limit [] entities page) (hfresh : ∀ e ∈ entities, e.relations = []) :
    page.slice = entities := by
  rw [← List.forall₂_eq_eq_eq]
  refine List.Forall₂.flip (((List.forall₂_and_left _ _).2 ⟨hfresh, h.slice⟩).imp ?_)
  exact fun e e' ⟨he, hloads⟩ => hloads.eq_of_nil he

/-- How a fetch without a key goes that has been prepared.

Its two statements have the same condition and bind the same values for it. Where there is a largest
limit, the selection has a limit from one up to it, whatever was asked for.

Take a store that counts the rows a condition selects, fewer than `2 ^ 63`, and gives of the rows of
the selection what its literals leave. If no other call fails and the rows in the window can be
decoded, the request is answered with the page that has their number, the offset that was asked for,
the resolved limit, and the window of the entities. It makes no difference whether the selection is
made where there are no rows, and a slice is never longer than the largest limit. -/
theorem execute_window {definitions : List Resource} {g : Engine}
    (hg : Registry.build definitions = .ok g.registry) {q : Query} (haction : q.action = .fetch)
    (hkeyed : q.keyed = false) {d : Dialect} {plan : Plan} (hplan : g.prepare d q = .ok plan) :
    ∃ p projection relations, plan.task = .fetchPage p projection relations ∧
      Sql.clause? .WHERE p.count = Sql.clause? .WHERE p.select ∧
      Sql.params p.count = Sql.params p.select ∧
      (g.config.maxLimit ≠ 0 → ∃ n : Int64, Sql.clause? .LIMIT p.select = some [.number n] ∧
        1 ≤ n.toInt ∧ n.toInt ≤ g.config.maxLimit.toNat) ∧
      ∀ {σ : Type} (s : Store σ) (number : Option Sql → Nat) (found : List Row)
        (entities : List Entity), s.dialect = d → s.Steady q.context → Holds s p number found →
        Relates s g.registry plan.target relations →
        (windowed q.offset (g.config.resolveLimit q.limit) found).mapM
          (Entity.ofRow plan.target.schema projection) = .ok entities →
        (∀ k u, ((selectPage s g.registry plan.target k p projection relations).on u).1 =
          ((fetchPage s g.registry plan.target k p projection relations).on u).1) ∧
        (g.execute s q).Succeeds fun output => ∃ page, output = .page page ∧
          IsPage found.length q.offset (g.config.resolveLimit q.limit) relations entities page ∧
          (q.relations = [] → page.slice = entities) ∧
          (g.config.maxLimit ≠ 0 → page.slice.length ≤ g.config.maxLimit.toNat) := by
  obtain ⟨r, hr, htarget, hchecked⟩ := checked_of_prepare hplan
  obtain ⟨p, projection, relations, htask⟩ := exists_page_of_prepare hplan haction hkeyed
  have hg := Registry.consistent_of_build hg
  have hmember : plan.target.resource ∈ g.registry.resources := by
    rw [htarget]
    exact hr
  have hdialect : plan.target.dialect = d := by
    rw [htarget]
    rfl
  rw [htask] at hchecked
  -- What has been checked as a page was compiled with the resolved window, so its literals are
  -- known.
  cases hchecked with
  | fetchPage hfields hrelations hpage =>
    obtain ⟨condition, order, hpaged⟩ := Target.exists_paged_of_page hpage
    obtain ⟨-, -, hoffset, hlimit⟩ := Target.select_and_count_of_page hpage
    have hresolved := Target.resolved_of_relations hfields hrelations
    refine ⟨p, projection, relations, htask, hpaged.clause?_where, hpaged.params, fun hmax => ?_,
      ?_⟩
    · obtain ⟨hle, hne⟩ := Config.resolveLimit_le hmax q.limit
      obtain ⟨n, hn, hone, hvalue⟩ := hpaged.exists_limit hne
      exact ⟨n, hn, hone, hvalue.trans (Int.ofNat_le.2 hle)⟩
    -- From here on there is a store: its rows are cut by the literals, and the page is read from
    -- them.
    intro σ s number found entities hs hsteady hholds hrelates hentities
    have hnumber : found.length = number (Sql.clause? .WHERE p.count) := by
      rw [hholds.length, hpaged.clause?_where]
    have hcut : cut? s.dialect p.select found =
        some (windowed q.offset (g.config.resolveLimit q.limit) found) := by
      rw [hs, ← hdialect]
      exact hpaged.cut?_select (hnumber ▸ hholds.bound)
    refine ⟨fun k u => ending_selectPage _ _ k _ _ hholds hpaged.clause?_where hcut u, ?_⟩
    have hplan : g.prepare s.dialect q = .ok plan := hs ▸ hplan
    refine succeeds_execute hplan htask hsteady fun k => ?_
    have hsucceeds : (fetchPage s g.registry plan.target k p projection relations).Succeeds
        (IsPage _ p.offset p.limit relations entities) :=
      succeeds_fetchPage hg hmember hresolved hholds hrelates hpaged.clause?_where hcut hentities
    rw [← hnumber, hoffset, hlimit] at hsucceeds
    intro u
    obtain ⟨page, v, hrun, hpage⟩ := hsucceeds u
    refine ⟨page, v, hrun, hpage, fun hnone => ?_, fun hmax => ?_⟩
    · rw [hnone] at hrelations
      cases hrelations
      exact hpage.slice_eq <| Target.forall_of_mapM
        (fun _ _ hrow => (Entity.frame_ofRow hrow).2.1) hentities
    · obtain ⟨hle, hne⟩ := Config.resolveLimit_le hmax q.limit
      rw [← hpage.slice.length_eq, Filter.length_of_mapM hentities]
      exact (length_windowed_le hne _ _).trans hle

/-- A store of rows, of which it gives the number or what the literals leave. -/
def shelf (rows : List Row) : Oracle :=
  { Oracle.accepting [] with
    query := fun _ _ sql =>
      .ok (if .func "COUNT" ∈ sql then [[.integer (Int64.ofNat rows.length)]]
        else (cut? .sqlite sql rows).getD []) }

/-- A store of fewer than `2 ^ 63` rows counts them and cuts the window out of them. -/
theorem holds_shelf {rows : List Row} (hrows : rows.length < 2 ^ 63) {p : PageSelection}
    (hcount : .func "COUNT" ∈ p.count) (hselect : .func "COUNT" ∉ p.select) :
    Holds (shelf rows).store p (fun _ => rows.length) rows where
  bound := hrows
  length := rfl
  count k h := by
    have hanswer : (shelf rows).query h k p.count = .ok [[.integer (Int64.ofNat rows.length)]] := by
      simp only [shelf, hcount, if_true]
    exact ⟨h ++ [.query k p.count ((shelf rows).query h k p.count)], Prod.ext hanswer rfl⟩
  select k left hcut h := by
    have hanswer : (shelf rows).query h k p.select = .ok left := by
      simp only [shelf, hselect, if_false]
      exact congrArg (fun rows => Except.ok (rows.getD [])) hcut
    exact ⟨h ++ [.query k p.select ((shelf rows).query h k p.select)], Prod.ext hanswer rfl⟩

/-- No call of the store fails. -/
theorem steady_shelf (rows : List Row) : (shelf rows).store.Steady .background :=
  ⟨fun _ => rfl, fun _ => ⟨_, _, rfl⟩, fun _ _ _ => ⟨_, rfl⟩⟩

/-- An engine for the staff that gives one person at a time. -/
def directory : Engine where
  registry := ⟨[staff]⟩
  config := { Config.default with maxLimit := 1 }

/-- The names of all but the first of the staff. -/
def afterFirst : Query :=
  ⟨"staff", .fetch, "", 1, some 0, ["name"], [], [], none, "", "", "", [], false, .background⟩

/-- Of three people the second is given where all but the first are asked for and a page has no
more than one. -/
theorem execute_window_directory :
    let p : PageSelection :=
      { select := [.token .SELECT, .ident "name", .token .FROM, .ident "staff", .token .LIMIT,
          .number 1, .token .OFFSET, .number 1]
        count := [.token .SELECT, .func "COUNT", .token .LPAREN, .token .STAR, .token .RPAREN,
          .token .FROM, .ident "staff"]
        offset := 1
        limit := 1 }
    let rows : List Row := [[.text "ann"], [.text "bob"], [.text "cid"]]
    Registry.build [staff] = .ok directory.registry ∧
    directory.prepare .sqlite afterFirst =
      .ok ⟨Target.make staff none .sqlite, .fetchPage p [1] []⟩ ∧
    ∃ page h, (directory.execute (shelf rows).store afterFirst).on [] = (.ok (.page page), h) ∧
      page.count.toNat = 3 ∧ page.limit = 1 ∧
      page.slice.map Entity.values = [[.integer 0, .text "bob", .null]] := by
  intro p rows
  have hbuild : Registry.build [staff] = .ok directory.registry := rfl
  have hplan : directory.prepare .sqlite afterFirst =
      .ok ⟨Target.make staff none .sqlite, .fetchPage p [1] []⟩ := by
    have haccept : MediaFormat.ofAccept (directory.accept afterFirst) = .ok .json :=
      MediaFormat.ofAccept_default
    unfold prepare
    rw [haccept]
    rfl
  refine ⟨hbuild, hplan, ?_⟩
  obtain ⟨p', projection, relations, htask, -, -, -, hserved⟩ :=
    execute_window hbuild rfl rfl hplan
  cases htask
  have hentities : (windowed 1 1 rows).mapM (Entity.ofRow staff.schema [1]) =
      .ok [.mk staff.schema [.integer 0, .text "bob", .null] []] := rfl
  have hholds : Holds (shelf rows).store p (fun _ => rows.length) rows :=
    holds_shelf (by decide) (by decide) (by decide)
  obtain ⟨-, hsucceeds⟩ := hserved (shelf rows).store _ rows _ rfl (steady_shelf rows) hholds
    (List.forall_mem_nil _) hentities
  obtain ⟨-, h, hrun, page, rfl, hpage, hslice, -⟩ := hsucceeds []
  exact ⟨page, h, hrun, hpage.count, hpage.limit, congrArg (List.map Entity.values) (hslice rfl)⟩

end Engine

end ResourceEngine
