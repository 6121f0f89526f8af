import ResourceEngine.Proofs.Engine.Batches
import ResourceEngine.Proofs.Filter.Acceptance
import ResourceEngine.Proofs.Statement.Clauses

/-!
# The limit of bound values

A dialect limits the number of values that a statement binds. The values of a page are counted when
it is compiled, a key is one value, and related rows are asked for by `keysPerQuery` keys at most. So
no statement of a fetch goes beyond the limit, and a fetch is refused for it only if it is for a page
whose filter goes beyond.
-/

namespace ResourceEngine

open Sql
open ResourceEngine.Filter (First Predicate)

/-! ### Pages -/

/-- The predicates of a filter, if there is one. -/
def Filter.conditions (filter : Option Filter) : List Predicate :=
  filter.toList.flatMap Filter.predicates

/-- The number of values that the filter of a request binds. -/
def Query.paramCount (q : Query) : Nat :=
  ((Filter.conditions q.filter).map Predicate.paramCount).sum

namespace Target

variable {t : Target} {projection : List Nat} {filter : Option Filter} {w : Window}
  {condition order : Sql} {p : Problem}

/-- A filter is refused for the first fault among its predicates. -/
theorem whereClause_eq_error_iff :
    t.whereClause filter = .error p ↔
      First (·.WellFormed t.schema) (·.Fault t.schema t.name) (Filter.conditions filter) p := by
  cases filter with
  | none => simp [whereClause, Filter.conditions, Filter.not_first_nil]
  | some f =>
    have hconditions : Filter.conditions (some f) = f.predicates := by simp [Filter.conditions]
    rw [hconditions, ← Filter.lower_eq_error_iff (d := t.dialect), whereClause]
    rcases f.lower t.schema t.name t.dialect with p' | (_ | sql) <;>
      simp [bind, Except.bind, pure, Except.pure]

/-- A condition binds the values that its predicates count. -/
theorem length_params_whereClause (h : t.whereClause filter = .ok condition) :
    (params condition).length = ((Filter.conditions filter).map Predicate.paramCount).sum := by
  cases filter with
  | none =>
    cases h
    rfl
  | some f =>
    have hconditions : Filter.conditions (some f) = f.predicates := by simp [Filter.conditions]
    obtain ⟨part, hpart, h⟩ := Filter.exists_of_bind h
    rw [hconditions, ← Filter.length_params_lower hpart]
    cases part <;> cases h <;> simp

/-- Where both clauses can be compiled, only the number of values is left to be checked. -/
theorem page_eq (hcondition : t.whereClause filter = .ok condition)
    (horder : t.orderBy w.sort = .ok order) (projection : List Nat) :
    t.page projection filter w =
      if t.dialect.maxParams < (params condition).length then
        .error (.tooManyParams (params condition).length t.dialect.maxParams)
      else
        .ok ⟨t.selectFrom (t.columns projection) ++ condition ++ order ++
            paginate t.dialect w.offset w.limit,
          t.selectFrom (call "COUNT" [.token .STAR]) ++ condition, w.offset, w.limit⟩ := by
  have hselect : t.select projection filter w =
      .ok (t.selectFrom (t.columns projection) ++ condition ++ order ++
        paginate t.dialect w.offset w.limit) := by
    rw [select, hcondition, horder]
    rfl
  have hcount : t.count filter = .ok (t.selectFrom (call "COUNT" [.token .STAR]) ++ condition) := by
    rw [count, hcondition]
    rfl
  have hbound : (params (t.selectFrom (t.columns projection) ++ condition ++ order ++
      paginate t.dialect w.offset w.limit)) = params condition := by
    simp [selectFrom, columns, table, params_orderBy horder, params_paginate]
  rw [page, hselect, hcount]
  simp only [bind, Except.bind, hbound]
  split_ifs <;> rfl

/-- A page is refused for its order, for a predicate, or else for the number of values if that is
beyond the limit, and not at all if it is not. -/
theorem page_cases (t : Target) (projection : List Nat) (filter : Option Filter) (w : Window) :
    (∃ p : Problem, p.isExcess = false ∧
      (t.page projection none w = .error p ∨
        First (·.WellFormed t.schema) (·.Fault t.schema t.name) (Filter.conditions filter) p) ∧
      t.page projection filter w = .error p) ∨
    (∃ page, t.page projection none w = .ok page) ∧
      (∀ p, ¬First (·.WellFormed t.schema) (·.Fault t.schema t.name)
        (Filter.conditions filter) p) ∧
      let bound := ((Filter.conditions filter).map Predicate.paramCount).sum
      (t.dialect.maxParams < bound →
        t.page projection filter w = .error (.tooManyParams bound t.dialect.maxParams)) ∧
      (bound ≤ t.dialect.maxParams → ∃ page, t.page projection filter w = .ok page) := by
  have hnone : t.whereClause none = .ok [] := rfl
  have horder_error {filter : Option Filter} {condition : Sql} {p : Problem}
      (hcondition : t.whereClause filter = .ok condition) (horder : t.orderBy w.sort = .error p) :
      t.page projection filter w = .error p := by
    rw [page, select, hcondition, horder]
    rfl
  -- The filter is compiled first, then the order, and only a page with both is counted.
  cases hcondition : t.whereClause filter with
  | error p =>
    refine .inl ⟨p, (failsWith_whereClause filter p hcondition).not_excess,
      .inr (whereClause_eq_error_iff.1 hcondition), ?_⟩
    rw [page, select, hcondition]
    rfl
  | ok condition =>
  cases horder : t.orderBy w.sort with
  | error p =>
    exact .inl ⟨p, (failsWith_orderBy w.sort p horder).not_excess,
      .inl (horder_error hnone horder), horder_error hcondition horder⟩
  | ok order =>
    refine .inr ⟨?_, fun p hp => ?_, ?_⟩
    · rw [page_eq hnone horder]
      exact ⟨_, if_neg (Nat.not_lt_zero _)⟩
    · cases hcondition.symm.trans (whereClause_eq_error_iff.2 hp)
    · rw [page_eq hcondition horder, ← length_params_whereClause hcondition]
      exact ⟨fun hbound => if_pos hbound, fun hbound => ⟨_, if_neg (Nat.not_lt.2 hbound)⟩⟩

/-- A page that is compiled stays within the limit, in its count as in its selection. -/
theorem length_params_of_page {page : PageSelection} (h : t.page projection filter w = .ok page) :
    (params page.count).length ≤ t.dialect.maxParams ∧
      (params page.select).length ≤ t.dialect.maxParams := by
  obtain ⟨condition, order, hpaged⟩ := exists_paged_of_page h
  rw [hpaged.params, and_self]
  obtain ⟨select, hselect, h⟩ := Filter.exists_of_bind h
  simp only at h
  split_ifs at h with hbound
  · cases h
  · obtain ⟨count, -, h⟩ := Filter.exists_of_bind h
    cases h
    exact Nat.le_of_not_lt hbound

/-- A selection of one row binds its key alone. -/
theorem params_selectOne {key : Value} {sql : Sql} (h : t.selectOne projection key = .ok sql) :
    params sql = [key] := by
  obtain ⟨condition, hcondition, h⟩ := Filter.exists_of_bind h
  obtain ⟨pk, -, hcondition⟩ := Filter.exists_of_bind hcondition
  cases h
  cases hcondition
  simp [selectFrom, columns, table]

end Target

/-! ### Checks -/

namespace Engine

variable {g : Engine} {q : Query} {d : Dialect}

/-- A check before that of the number of values finds the problem: one that the request does not pass
without a filter either, or that of the predicates, which reports the first one that is not well
formed. -/
def RefusedEarlier (g : Engine) (d : Dialect) (q : Query) (p : Problem) : Prop :=
  g.prepare d { q with filter := none } = .error p ∨
    ∃ r, g.registry.lookup? q.resource = some r ∧
      First (·.WellFormed r.schema) (·.Fault r.schema r.name) (Filter.conditions q.filter) p

/-- What becomes of a fetch whatever its filter is: it is refused before the filter is looked at, or
only the key or the page is left to be compiled. -/
theorem fetchTask_cases {t : Target}
    (hjoin : ∀ relation ∈ t.schema.relations, ∃ i, t.joinIndex relation = .ok i) :
    (∃ p : Problem, p.isExcess = false ∧
      ∀ filter, g.fetchTask t { q with filter := filter } = .error p) ∨
    ∃ projection relations, ∀ filter, g.fetchTask t { q with filter := filter } =
      if q.keyed then (Task.fetchOne · projection relations) <$> t.parseKey q.key
      else (Task.fetchPage · projection relations) <$>
        t.page projection filter ⟨q.sort, q.offset, g.config.resolveLimit q.limit⟩ := by
  -- Fields and relations are resolved before the filter is looked at, so what fails there fails
  -- whatever the filter is.
  cases hfields : t.projection q.fields with
  | error p =>
    refine .inl ⟨p, (Target.failsWith_projection q.fields p hfields).not_excess, fun filter => ?_⟩
    rw [fetchTask, hfields]
    rfl
  | ok selected =>
    rcases hrelations : t.relations selected q.relations with ⟨p | relations, projection⟩
    · have hfault := Target.failsWith_resolve hjoin [] selected q.relations p
        (congrArg Prod.fst hrelations)
      refine .inl ⟨p, hfault.not_excess, fun filter => ?_⟩
      rw [fetchTask, hfields]
      simp only [bind, Except.bind, hrelations]
    · refine .inr ⟨projection, relations, fun filter => ?_⟩
      rw [fetchTask, hfields]
      simp only [bind, Except.bind, hrelations]
      by_cases hkeyed : q.keyed = true
      · have hkeyed' : Query.keyed { q with filter := filter } = true := hkeyed
        rw [if_pos hkeyed, if_pos hkeyed']
        cases t.parseKey q.key <;> rfl
      · have hkeyed' : ¬Query.keyed { q with filter := filter } = true := hkeyed
        rw [if_neg hkeyed, if_neg hkeyed']
        cases t.page projection filter ⟨q.sort, q.offset, g.config.resolveLimit q.limit⟩ <;> rfl

/-- What becomes of a request to fetch whatever its filter is: it is refused for something else, or
only the key or the page is left to be compiled. -/
theorem prepare_cases (hg : g.registry.Consistent) (haction : q.action = .fetch) (d : Dialect) :
    (∃ p : Problem, p.isExcess = false ∧
      ∀ filter, g.prepare d { q with filter := filter } = .error p) ∨
    ∃ r projection relations, g.registry.lookup? q.resource = some r ∧
      ∀ filter, g.prepare d { q with filter := filter } =
        Plan.mk (Target.make r (g.space q) d) <$>
          if q.keyed then
            (Task.fetchOne · projection relations) <$>
              (Target.make r (g.space q) d).parseKey q.key
          else
            (Task.fetchPage · projection relations) <$>
              (Target.make r (g.space q) d).page projection filter
                ⟨q.sort, q.offset, g.config.resolveLimit q.limit⟩ := by
  have hprepare (filter : Option Filter) : g.prepare d { q with filter := filter } =
      g.check q >>= fun r => Plan.mk (Target.make r (g.space q) d) <$>
        g.fetchTask (Target.make r (g.space q) d) { q with filter := filter } := by
    rw [prepare_eq_check]
    refine bind_congr fun r => ?_
    rw [task, haction]
    rfl
  simp only [hprepare]
  cases hcheck : g.check q with
  | error p =>
    refine .inl ⟨p, ?_, fun filter => rfl⟩
    obtain hfault | hforbidden := failsWith_check p hcheck
    · exact hfault.not_excess
    · cases p <;> first | rfl | cases hforbidden
  | ok r =>
  obtain ⟨-, hlookup, -⟩ := check_eq_ok_iff.1 hcheck
  -- The registry is consistent, so no relation of the resource fails to be joined.
  have hjoin : ∀ relation ∈ (Target.make r (g.space q) d).schema.relations,
      ∃ i, (Target.make r (g.space q) d).joinIndex relation = .ok i := fun relation hrelation =>
    (Target.exists_joinIndex (t := Target.make r (g.space q) d) hg
      (Registry.mem_of_lookup? hlookup) hrelation).imp fun _ => And.right
  obtain ⟨p, hp, htask⟩ | ⟨projection, relations, htask⟩ :=
    fetchTask_cases (g := g) (q := q) hjoin
  · refine .inl ⟨p, hp, fun filter => ?_⟩
    change Plan.mk _ <$> g.fetchTask _ { q with filter := filter } = _
    rw [htask]
    rfl
  · refine .inr ⟨r, projection, relations, hlookup, fun filter => ?_⟩
    change Plan.mk _ <$> g.fetchTask _ { q with filter := filter } = _
    rw [htask]

/-- A request for one row is not refused for the number of values. -/
theorem not_excess_of_keyed (hg : g.registry.Consistent) (haction : q.action = .fetch)
    (hkeyed : q.keyed = true) {p : Problem} (h : g.prepare d q = .error p) :
    p.isExcess = false := by
  obtain ⟨p', hp', hprepare⟩ | ⟨r, projection, relations, -, hprepare⟩ :=
    prepare_cases hg haction d
  · cases h.symm.trans (hprepare q.filter)
    exact hp'
  · have hkey := h.symm.trans (hprepare q.filter)
    rw [if_pos hkeyed] at hkey
    cases hparse : (Target.make r (g.space q) d).parseKey q.key with
    | error p' =>
      rw [hparse] at hkey
      cases hkey
      exact (Target.failsWith_parseKey q.key p hparse).not_excess
    | ok key =>
      rw [hparse] at hkey
      cases hkey

/-- A request for a page is refused earlier, or else for the number of values if that is beyond the
limit, and not at all if it is not. -/
theorem prepare_page (hg : g.registry.Consistent) (haction : q.action = .fetch)
    (hkeyed : q.keyed = false) (d : Dialect) :
    (∃ p : Problem, p.isExcess = false ∧ g.RefusedEarlier d q p ∧ g.prepare d q = .error p) ∨
    (∀ p, ¬g.RefusedEarlier d q p) ∧
      (d.maxParams < q.paramCount →
        g.prepare d q = .error (.tooManyParams q.paramCount d.maxParams)) ∧
      (q.paramCount ≤ d.maxParams → ∃ plan, g.prepare d q = .ok plan) := by
  obtain ⟨p, hp, hprepare⟩ | ⟨r, projection, relations, hlookup, hprepare⟩ :=
    prepare_cases hg haction d
  · exact .inl ⟨p, hp, .inl (hprepare none), hprepare q.filter⟩
  simp only [hkeyed, Bool.false_eq_true, if_false] at hprepare
  have hrefused {filter : Option Filter} {p : Problem}
      (hpage : (Target.make r (g.space q) d).page projection filter
        ⟨q.sort, q.offset, g.config.resolveLimit q.limit⟩ = .error p) :
      g.prepare d { q with filter := filter } = .error p := by
    rw [hprepare, hpage]
    rfl
  have hpassed {filter : Option Filter} {page : PageSelection}
      (hpage : (Target.make r (g.space q) d).page projection filter
        ⟨q.sort, q.offset, g.config.resolveLimit q.limit⟩ = .ok page) :
      ∃ plan, g.prepare d { q with filter := filter } = .ok plan := by
    rw [hprepare, hpage]
    exact ⟨_, rfl⟩
  obtain ⟨p, hp, hother, hpage⟩ | ⟨⟨page, hnone⟩, hfirst, hbeyond, hwithin⟩ :=
    (Target.make r (g.space q) d).page_cases projection q.filter
      ⟨q.sort, q.offset, g.config.resolveLimit q.limit⟩
  · exact .inl ⟨p, hp, hother.imp hrefused fun h => ⟨r, hlookup, h⟩, hrefused hpage⟩
  · refine .inr ⟨?_, fun hbound => hrefused (hbeyond hbound), fun hbound => ?_⟩
    -- An earlier refusal would be there without the filter too, or it is of a predicate.
    · rintro p (h | ⟨r', hr', h⟩)
      · obtain ⟨plan, hplan⟩ := hpassed hnone
        cases h.symm.trans hplan
      · obtain rfl := Option.some.inj (hlookup.symm.trans hr')
        exact hfirst p h
    · obtain ⟨page, hpage⟩ := hwithin hbound
      exact hpassed hpage

/-- What a request for a page is refused for whose filter binds too many values. -/
theorem exists_refusal_of_lt (hg : g.registry.Consistent) (haction : q.action = .fetch)
    (hkeyed : q.keyed = false) (hbound : d.maxParams < q.paramCount) :
    ∃ p : Problem, g.prepare d q = .error p ∧ (g.RefusedEarlier d q p ∨
      p = .tooManyParams q.paramCount d.maxParams ∧ p.error.kind = .badRequest) := by
  obtain ⟨p, -, hother, hp⟩ | ⟨-, hbeyond, -⟩ := prepare_page hg haction hkeyed d
  · exact ⟨p, hp, .inl hother⟩
  · exact ⟨_, hbeyond hbound, .inr ⟨rfl, rfl⟩⟩

/-- Only a request for a page whose filter binds too many values is refused for that reason. -/
theorem lt_of_isExcess (hg : g.registry.Consistent) (haction : q.action = .fetch) {p : Problem}
    (hp : g.prepare d q = .error p) (hexcess : p.isExcess = true) :
    q.keyed = false ∧ d.maxParams < q.paramCount := by
  cases hkeyed : q.keyed with
  | true =>
    rw [not_excess_of_keyed hg haction hkeyed hp] at hexcess
    cases hexcess
  | false =>
    refine ⟨rfl, Nat.lt_of_not_le fun hbound => ?_⟩
    obtain ⟨p', hp', -, hprepare⟩ | ⟨-, -, hwithin⟩ := prepare_page hg haction hkeyed d
    · cases hp.symm.trans hprepare
      rw [hp'] at hexcess
      cases hexcess
    · obtain ⟨plan, hplan⟩ := hwithin hbound
      cases hp.symm.trans hplan

/-! ### Statements -/

/-- A chunk of keys is within the limit of each dialect. -/
theorem keysPerQuery_le (d : Dialect) : keysPerQuery ≤ d.maxParams := by
  cases d <;> decide

/-- No query of a fetch binds more values than the dialect allows. -/
theorem queries_limited {O : Oracle} {plan : Plan} (hchecked : g.Checked q plan.target plan.task)
    (haction : q.action = .fetch) (k : Connection) :
    Queries O (fun sql => (params sql).length ≤ plan.target.dialect.maxParams)
      (plan.target.Raises g.registry plan.task.relations) k (g.run O.store plan k) := by
  obtain ⟨t, task⟩ := plan
  have hrelated : ∀ relation ∈ task.relations, ∀ other, g.registry.lookup? relation.target =
      some other → ∀ column (keys : List Value), keys.length ≤ keysPerQuery →
        (params ((Target.make other t.space t.dialect).selectIn other.schema.indices column
          keys)).length ≤ t.dialect.maxParams := by
    intro relation _ other _ column keys hkeys
    rw [Target.params_selectIn]
    exact hkeys.trans (keysPerQuery_le t.dialect)
  unfold run
  cases hchecked with
  | fetchOne =>
    refine (queries_fetchOne O g.registry t k hrelated (fun _ => id) fun sql hsql => ?_).map
      Output.entity
    rw [Target.params_selectOne hsql]
    have hone : 1 ≤ keysPerQuery := by decide
    exact hone.trans (keysPerQuery_le t.dialect)
  | fetchPage _ _ hpage =>
    obtain ⟨hcount, hselect⟩ := Target.length_params_of_page hpage
    exact (queries_fetchPage O g.registry t k hrelated (fun _ => id) _ hcount hselect).map
      Output.page
  | create _ hother | replace _ _ _ hother | partialUpdate _ _ hother | delete _ hother =>
    exact nomatch haction.symm.trans hother

/-! ### Requests -/

/-- Only the errors of requests with a key are put into other words. -/
theorem finalError_of_not_keyed (hkeyed : q.keyed = false) (e : Error) : finalError q e = e := by
  rw [finalError, hkeyed, Bool.and_false, if_neg Bool.false_ne_true]

/-- No fetch goes beyond the limit of bound values. Each of its statements binds at most as many
values as the dialect allows, whatever the store answers. A request for a page whose filter would
bind more is refused before the store is asked for anything: for that reason, unless an earlier check
refuses it; and no other fetch is refused for that reason. When a fetch comes to its end, the
statements after those for its own rows are one batch for each of its relations, and the values that
a batch binds are the keys other than null of the rows that have been loaded, each of them once. -/
theorem executeIn_limited {definitions : List Resource} {g : Engine}
    (hg : Registry.build definitions = .ok g.registry) {q : Query} (haction : q.action = .fetch)
    (O : Oracle) (ambient : Option Connection) (mode : Propagation) (h : History) :
    ∃ ending new, (g.executeIn O.store q ambient mode).on h = (ending, h ++ new) ∧
      (∀ x ∈ new, ∀ sql, x.statement? = some sql → (params sql).length ≤ O.dialect.maxParams) ∧
      (q.keyed = false → O.dialect.maxParams < q.paramCount →
        new = [] ∧ ∃ p : Problem, g.prepare O.dialect q = .error p ∧
          ending = .error (.error p.error) ∧
          (g.RefusedEarlier O.dialect q p ∨
            p = .tooManyParams q.paramCount O.dialect.maxParams ∧ p.error.kind = .badRequest)) ∧
      (∀ p : Problem, g.prepare O.dialect q = .error p → p.isExcess = true →
        q.keyed = false ∧ O.dialect.maxParams < q.paramCount) ∧
      ∀ output, ending = .ok (.done output) → ∃ plan own batches,
        g.prepare O.dialect q = .ok plan ∧ plan.target.Leads plan.task own ∧
        new.filterMap Exchange.statement? = own ++ batches.flatten ∧
        List.Forall₂ (plan.target.Loads g.registry output.entities) plan.task.relations
          batches := by
  have hconsistent := Registry.consistent_of_build hg
  rw [executeIn_on]
  cases hprepare : g.prepare O.dialect q with
  | error p =>
    have hprepare' : g.prepare O.store.dialect q = .error p := hprepare
    rw [hprepare']
    refine ⟨.error (.error (finalError q p.error)), [], by rw [List.append_nil],
      List.forall_mem_nil _, fun hkeyed hbound => ?_, ?_, nofun⟩
    · obtain ⟨p', hp', hreason⟩ := exists_refusal_of_lt hconsistent haction hkeyed hbound
      cases hprepare.symm.trans hp'
      exact ⟨rfl, p, rfl, by rw [finalError_of_not_keyed hkeyed], hreason⟩
    · rintro _ ⟨⟩ hexcess
      exact lt_of_isExcess hconsistent haction hprepare hexcess
  | ok plan =>
    have hprepare' : g.prepare O.store.dialect q = .ok plan := hprepare
    rw [hprepare']
    obtain ⟨r, hr, htarget, hchecked⟩ := checked_of_prepare hprepare
    have hdialect : plan.target.dialect = O.dialect := by rw [htarget, Target.make]
    have hqueries (k : Connection) : Queries O (fun sql => (params sql).length ≤ O.dialect.maxParams)
        (fun _ => True) k (g.run O.store plan k) := by
      rw [← hdialect]
      exact (queries_limited hchecked haction k).mono fun _ _ => trivial
    obtain ⟨ending, new, hrun, haccounts⟩ :=
      O.accounted_propagate (fun _ _ => trivial) hqueries q.context ambient mode h
    refine ⟨reworded q ending, new, by simp only [hrun], haccounts.sent, fun hkeyed hbound => ?_,
      fun p hp => ?_, fun output hdone => ?_⟩
    · obtain ⟨p, hp, -⟩ := exists_refusal_of_lt hconsistent haction hkeyed hbound
      cases hprepare.symm.trans hp
    · cases hp
    -- A call that has done its work has run it once, and nothing else has sent a statement.
    · rw [eq_of_reworded hdone] at hrun
      obtain ⟨k, h₀, h₁, hwork, hfirst, hlast⟩ := Oracle.made_of_propagate hrun
      have ht : plan.target.resource ∈ g.registry.resources := by
        rw [htarget]
        exact hr
      obtain ⟨own, batches, hleads, hsent, hloads⟩ := sent_run hconsistent ht hchecked haction hwork
      obtain ⟨calls, hcalls, hstatements⟩ := (hfirst.trans hsent).trans hlast
      obtain rfl := List.append_cancel_left hcalls
      refine ⟨plan, own, batches, rfl, hleads, ?_, hloads⟩
      rw [hstatements, List.nil_append, List.append_nil]

/-- Two parts of one whole. -/
def partRows : List Row :=
  [[.integer 1, .text "tidy up", .bool false, .integer 1],
    [.integer 2, .text "sweep", .bool true, .integer 1]]

/-- A request for the tasks with some keys, and for their wholes. -/
def wholes (keys : List Value) : Query :=
  ⟨"chores", .fetch, "", 0, none, [], ["whole"], [], some (.predicate "id" .isIn (.list keys)), "",
    "", "", [], false, .background⟩

/-- The request binds its keys. -/
theorem paramCount_wholes (keys : List Value) : (wholes keys).paramCount = keys.length := by
  simp [wholes, Query.paramCount, Filter.conditions, Filter.predicates, Predicate.paramCount,
    Filter.Operand.count, Filter.Op.demand]

/-- The values that the statements of a request bind that has come to its end. -/
def bindings? : Except Stop (Outcome Output) × History → Option (List (List Value))
  | (.ok (.done _), new) => some ((new.filterMap Exchange.statement?).map params)
  | _ => none

/-- Bindings are told of requests that have come to their end. -/
theorem exists_done_of_bindings? {ending : Except Stop (Outcome Output)} {new : History}
    {bound : List (List Value)} (h : bindings? (ending, new) = some bound) :
    (∃ output, ending = .ok (.done output)) ∧
      (new.filterMap Exchange.statement?).map params = bound := by
  rcases ending with stop | (output | e)
  · cases h
  · exact ⟨⟨output, rfl⟩, Option.some.inj h⟩
  · cases h

/-- Three keys are bound for the count and again for the page, and then the key of the whole once. A
request with one key more than the limit is refused. -/
theorem executeIn_limited_wholes :
    let g : Engine := ⟨⟨[chores]⟩, .default⟩
    let O := Oracle.accepting partRows
    let few : List Value := [.integer 1, .integer 2, .integer 3]
    (∃ (output : Output) (new : History) (plan : Plan) (own : List Sql) (batches : List (List Sql)),
      (g.executeIn O.store (wholes few) none .current).on [] = (.ok (.done output), new) ∧
      (new.filterMap Exchange.statement?).map params = [few, few, [.integer 1]] ∧
      new.filterMap Exchange.statement? = own ++ batches.flatten ∧
      plan.target.Leads plan.task own ∧
      List.Forall₂ (plan.target.Loads g.registry output.entities) plan.task.relations batches) ∧
    ∀ keys : List Value, keys.length = 32767 → ∃ p : Problem,
      (g.executeIn O.store (wholes keys) none .current).on [] = (.error (.error p.error), []) := by
  intro g O few
  have hbuild : Registry.build [chores] = .ok g.registry := rfl
  have hlimited (keys : List Value) :=
    executeIn_limited hbuild (show (wholes keys).action = .fetch from rfl) O none .current []
  constructor
  · obtain ⟨ending, new, hrun, -, -, -, hdone⟩ := hlimited few
    have hcalls : bindings? ((g.executeIn O.store (wholes few) none .current).on []) =
        some [few, few, [.integer 1]] := by decide +kernel
    rw [hrun] at hcalls
    obtain ⟨⟨output, rfl⟩, hbound⟩ := exists_done_of_bindings? hcalls
    obtain ⟨plan, own, batches, -, hleads, hstatements, hloads⟩ := hdone output rfl
    exact ⟨output, new, plan, own, batches, hrun, hbound, hstatements, hleads, hloads⟩
  · intro keys hkeys
    obtain ⟨ending, new, hrun, -, hrefused, -⟩ := hlimited keys
    have hbound : Dialect.sqlite.maxParams < (wholes keys).paramCount := by
      rw [paramCount_wholes, hkeys]
      decide
    obtain ⟨rfl, p, -, rfl, -⟩ := hrefused rfl hbound
    exact ⟨p, hrun⟩

end Engine

end ResourceEngine
