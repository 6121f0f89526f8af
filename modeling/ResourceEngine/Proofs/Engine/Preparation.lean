import ResourceEngine.Engine.Plan
import ResourceEngine.Proofs.Filter.Meaning
import ResourceEngine.Proofs.Statement.Projection

/-!
# Checked requests

What the check of a request leaves to rely on. `Engine.Checked` has a case for each task, with
everything that has been found out about the request by the time the task is there.
-/

namespace ResourceEngine.Engine

open ResourceEngine.Filter (exists_of_bind)

/-- What a request has been checked for whose task this is. -/
inductive Checked (g : Engine) (q : Query) (t : Target) : Task → Prop where
  | fetchOne {key : Value} {selected projection : List Nat} {relations : List Relation}
    (hfields : t.projection q.fields = .ok selected)
    (hrelations : t.relations selected q.relations = (.ok relations, projection))
    (hkey : t.parseKey q.key = .ok key) (haction : q.action = .fetch) :
    Checked g q t (.fetchOne key projection relations)
  | fetchPage {page : PageSelection} {selected projection : List Nat} {relations : List Relation}
    (hfields : t.projection q.fields = .ok selected)
    (hrelations : t.relations selected q.relations = (.ok relations, projection))
    (hpage : t.page projection q.filter ⟨q.sort, q.offset, g.config.resolveLimit q.limit⟩ =
      .ok page) (haction : q.action = .fetch) : Checked g q t (.fetchPage page projection relations)
  | create {e : Entity} (hbody : g.decodeBody t.resource q = .ok e) (haction : q.action = .create) :
    Checked g q t (.create e)
  | replace {key : Value} {pk : Field} {i : Nat} {e : Entity} (hkey : t.parseKey q.key = .ok key)
    (hpk : t.resource.primaryKey = .ok (pk, i)) (hbody : g.decodeBody t.resource q = .ok e)
    (haction : q.action = .replace) : Checked g q t (.replace (e.setAt i key))
  | partialUpdate {key : Value} {format : MediaFormat}
    (hformat : MediaFormat.detect (g.contentType q) = .ok format)
    (hkey : t.parseKey q.key = .ok key) (haction : q.action = .partialUpdate) :
    Checked g q t (.partialUpdate key q.body (g.contentType q))
  | delete {key : Value} (hkey : t.parseKey q.key = .ok key) (haction : q.action = .delete) :
    Checked g q t (.delete key)

variable {g : Engine} {q : Query} {t : Target}

/-- What has become a task of a fetch has passed its checks. -/
theorem checked_of_fetchTask (haction : q.action = .fetch) {task : Task}
    (h : g.fetchTask t q = .ok task) : g.Checked q t task := by
  obtain ⟨selected, hfields, h⟩ := exists_of_bind h
  obtain ⟨relations, hrelations, h⟩ := exists_of_bind h
  have hrelations : t.relations selected q.relations =
      (.ok relations, (t.relations selected q.relations).2) := Prod.ext hrelations rfl
  by_cases hkeyed : q.keyed = true
  · rw [if_pos hkeyed] at h
    obtain ⟨key, hkey, h⟩ := exists_of_bind h
    cases h
    exact .fetchOne hfields hrelations hkey haction
  · rw [if_neg hkeyed] at h
    obtain ⟨page, hpage, h⟩ := exists_of_bind h
    cases h
    exact .fetchPage hfields hrelations hpage haction

/-- What has become a task has passed its checks. -/
theorem checked_of_task {task : Task} (h : g.task t q = .ok task) : g.Checked q t task := by
  unfold Engine.task at h
  cases haction : q.action <;> rw [haction] at h <;> simp only at h
  case fetch => exact checked_of_fetchTask haction h
  case create =>
    obtain ⟨e, hbody, h⟩ := exists_of_bind h
    cases h
    exact .create hbody haction
  case replace =>
    obtain ⟨key, hkey, h⟩ := exists_of_bind h
    obtain ⟨⟨pk, i⟩, hpk, h⟩ := exists_of_bind h
    obtain ⟨e, hbody, h⟩ := exists_of_bind h
    cases h
    exact .replace hkey hpk hbody haction
  case partialUpdate =>
    obtain ⟨format, hformat, h⟩ := exists_of_bind h
    obtain ⟨key, hkey, h⟩ := exists_of_bind h
    cases h
    exact .partialUpdate hformat hkey haction
  case delete =>
    obtain ⟨key, hkey, h⟩ := exists_of_bind h
    cases h
    exact .delete hkey haction

/-! ### Checks before the task -/

/-- The checks of a request that come before its task, one after another; they find the resource. -/
def check (g : Engine) (q : Query) : Except Problem Resource :=
  if q.resource = "" then .error .resourceRequired
  else
    match g.registry.lookup? q.resource with
    | none => .error (.unknownResource q.resource)
    | some r => do
      checkKey q
      let _ ← MediaFormat.ofAccept (g.accept q)
      if r.actions.permits q.action then return r
      else .error (.actionNotPermitted q.action r.name)

/-- A request is checked for what every action needs, and then for its task. -/
theorem prepare_eq_check (g : Engine) (d : Dialect) (q : Query) :
    g.prepare d q = g.check q >>= fun r =>
      Plan.mk (Target.make r (g.space q) d) <$> g.task (Target.make r (g.space q) d) q := by
  unfold prepare check
  by_cases hname : q.resource = ""
  · rw [if_pos hname, if_pos hname]
    rfl
  rw [if_neg hname, if_neg hname]
  cases g.registry.lookup? q.resource with
  | none => rfl
  | some r =>
    simp only [bind_assoc]
    refine bind_congr fun _ => bind_congr fun _ => ?_
    cases r.actions.permits q.action <;> rfl

/-- What a request has passed that has come to its task. -/
theorem check_eq_ok_iff {r : Resource} :
    g.check q = .ok r ↔ q.resource ≠ "" ∧ g.registry.lookup? q.resource = some r ∧
      checkKey q = .ok () ∧ (∃ format, MediaFormat.ofAccept (g.accept q) = .ok format) ∧
      r.actions.permits q.action = true := by
  constructor
  · intro h
    unfold check at h
    split_ifs at h with hname
    cases hlookup : g.registry.lookup? q.resource with
    | none =>
      rw [hlookup] at h
      cases h
    | some r' =>
      rw [hlookup] at h
      obtain ⟨_, hkey, h⟩ := exists_of_bind h
      obtain ⟨format, hformat, h⟩ := exists_of_bind h
      split_ifs at h with hpermits
      cases h
      exact ⟨hname, rfl, hkey, ⟨format, hformat⟩, hpermits⟩
  · rintro ⟨hname, hlookup, hkey, ⟨format, hformat⟩, hpermits⟩
    rw [check, if_neg hname, hlookup]
    simp only [hkey, hformat, hpermits, if_true]
    rfl

/-- A request that has been prepared has a task on the resource that it names. -/
theorem exists_task_of_prepare {d : Dialect} {plan : Plan} (h : g.prepare d q = .ok plan) :
    ∃ r, g.registry.lookup? q.resource = some r ∧ plan.target = Target.make r (g.space q) d ∧
      g.task plan.target q = .ok plan.task := by
  rw [prepare_eq_check] at h
  obtain ⟨r, hcheck, h⟩ := exists_of_bind h
  obtain ⟨-, hlookup, -⟩ := check_eq_ok_iff.1 hcheck
  rw [map_eq_pure_bind] at h
  obtain ⟨task, htask, h⟩ := exists_of_bind h
  cases h
  exact ⟨r, hlookup, rfl, htask⟩

/-- A request that is prepared is about a resource of the registry, and has passed its checks. -/
theorem exists_lookup_of_prepare {d : Dialect} {plan : Plan} (h : g.prepare d q = .ok plan) :
    ∃ r, g.registry.lookup? q.resource = some r ∧ plan.target = Target.make r (g.space q) d ∧
      g.Checked q plan.target plan.task := by
  obtain ⟨r, hlookup, htarget, htask⟩ := exists_task_of_prepare h
  exact ⟨r, hlookup, htarget, checked_of_task htask⟩

theorem checked_of_prepare {d : Dialect} {plan : Plan} (h : g.prepare d q = .ok plan) :
    ∃ r ∈ g.registry.resources, plan.target = Target.make r (g.space q) d ∧
      g.Checked q plan.target plan.task := by
  obtain ⟨r, hlookup, hplan⟩ := exists_lookup_of_prepare h
  exact ⟨r, Registry.mem_of_lookup? hlookup, hplan⟩

/-- A fetch without a key that has been prepared is for a page. -/
theorem exists_page_of_prepare {d : Dialect} {plan : Plan} (h : g.prepare d q = .ok plan)
    (haction : q.action = .fetch) (hkeyed : q.keyed = false) :
    ∃ page projection relations, plan.task = .fetchPage page projection relations := by
  obtain ⟨r, -, -, htask⟩ := exists_task_of_prepare h
  unfold Engine.task at htask
  rw [haction] at htask
  obtain ⟨selected, -, htask⟩ := exists_of_bind htask
  obtain ⟨relations, -, htask⟩ := exists_of_bind htask
  rw [hkeyed, if_neg Bool.false_ne_true] at htask
  obtain ⟨page, -, htask⟩ := exists_of_bind htask
  exact ⟨page, _, relations, (Except.ok.inj htask).symm⟩

/-- A key is parsed for a resource with a primary key of one field. -/
theorem exists_primaryKey_of_parseKey {text : String} {key : Value}
    (h : t.parseKey text = .ok key) : ∃ pk, t.resource.primaryKey = .ok pk := by
  obtain ⟨pk, hpk, -⟩ := exists_of_bind h
  exact ⟨pk, hpk⟩

end ResourceEngine.Engine
