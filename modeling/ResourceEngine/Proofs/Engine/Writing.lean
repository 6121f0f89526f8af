import ResourceEngine.Proofs.Codec.Body
import ResourceEngine.Proofs.Engine.Commitment
import ResourceEngine.Proofs.Statement.Text

/-!
# Replacements and partial updates

A replacement overwrites a row: a field that the body does not name becomes zero. A partial update
reads the row first and keeps what it holds in such a field. Neither moves the key: the row is the
one with the key of the request, and the columns that are assigned are the others. A row that is
nothing but a key has no others, and its key is assigned itself.
-/

namespace ResourceEngine

open Sql

/-- The pairs assign the fields outside the primary key, in order, each what it takes from a body,
and what it holds if the body does not name it. -/
def Schema.Merges (s : Schema) (written : List BodyPair) (held : Field × Nat → Option Value)
    (pairs : List (String × Value)) : Prop :=
  List.Forall₂
    (fun field pair => pair.1 = field.1.name ∧ field.1.taken? written (held field) = some pair.2)
    (s.fields.zipIdx.filter (!·.1.primary)) pairs

/-- What fields hold that nothing has been assigned to. -/
def Schema.zeros (field : Field × Nat) : Option Value := some field.1.zero

/-- What fields hold in a row of all columns. -/
def Schema.heldIn (s : Schema) (row : Row) (field : Field × Nat) : Option Value :=
  s.readAt? s.indices row field.2

/-- A decoded row holds what the row does. -/
theorem Schema.heldIn_of_ofRow {s : Schema} {row : Row} {stored : Entity} {f : Field} {i : Nat}
    (h : Entity.ofRow s s.indices row = .ok stored) (hf : s.fields[i]? = some f) :
    s.heldIn row (f, i) = stored.getAt? i := by
  have hi := (List.getElem?_eq_some_iff.1 hf).1
  obtain ⟨v, hv, hvalue⟩ := Entity.exists_readAt?_of_ofRow h List.nodup_range
    (List.mem_range.2 hi) hi
  rw [heldIn, hv, hvalue]

namespace Target

variable {t : Target} {pk : Field} {key : Value}

/-- The statement updates the row with the key, and assigns these pairs. The key is the last value
that it binds, and its column is not assigned, unless there is no other. -/
structure Overwrites (t : Target) (pk : Field) (key : Value) (written : List BodyPair)
    (held : Field × Nat → Option Value) (pairs : List (String × Value)) (sql : Sql) : Prop where
  merges : t.schema.Merges written held pairs
  unassigned : pk.name ∉ pairs.map (·.1)
  statement : pairs ≠ [] → sql = t.updateOf pk key pairs
  bound : pairs ≠ [] → params sql = pairs.map (·.2) ++ [key]
  alone : pairs = [] → sql = t.updateOf pk key [(pk.name, key)]

/-- An update binds its values in order, and then the key. -/
theorem params_updateOf (pairs : List (String × Value)) :
    params (t.updateOf pk key pairs) = pairs.map (·.2) ++ [key] := by
  simp [updateOf, returning, table]

/-- Over the fields from one position on, since a field takes what is held at its position. -/
theorem forall₂_assigned {fields : List Field} {values : List Value} {n : Nat}
    (hlength : values.length = fields.length) {taken : Field × Nat → Option Value}
    (htaken : ∀ j f, fields[j]? = some f → f.primary = false → taken (f, n + j) = values[j]?) :
    List.Forall₂ (fun field pair => pair.1 = field.1.name ∧ taken field = some pair.2)
      ((fields.zipIdx n).filter (!·.1.primary))
      ((fields.zip values).filterMap fun (f, v) =>
        if f.primary then none else some (f.name, v)) := by
  induction fields generalizing values n with
  | nil => exact .nil
  | cons f fields ih =>
    cases values with
    | nil => cases hlength
    | cons v values =>
      have hrest := ih (Nat.succ.inj hlength) (n := n + 1) fun j f' hf' hprimary => by
        have htail := htaken (j + 1) f' (by simpa using hf') hprimary
        rwa [List.getElem?_cons_succ, ← Nat.add_assoc, Nat.add_right_comm] at htail
      cases hprimary : f.primary with
      | true => simpa [hprimary] using hrest
      | false =>
        have hhead := htaken 0 f rfl hprimary
        simp only [List.zipIdx_cons, hprimary, Bool.not_false, List.filter_cons_of_pos,
          List.zip_cons_cons, List.filterMap_cons, Bool.false_eq_true, if_false]
        exact .cons ⟨rfl, hhead⟩ hrest

/-- The update of an entity that holds the key. -/
theorem overwrites_update {e : Entity} {i : Nat} {written : List BodyPair}
    {held : Field × Nat → Option Value} (hkey : t.resource.primaryKey = .ok (pk, i))
    (hnodup : t.schema.columns.Nodup) (hlength : e.values.length = t.schema.fields.length)
    (hvalue : e.getAt? i = some key)
    (htaken : ∀ j f, t.schema.fields[j]? = some f → f.primary = false →
      f.taken? written (held (f, j)) = e.getAt? j) :
    ∃ sql, t.update e = .ok sql ∧ t.Overwrites pk key written held (t.assigned e) sql := by
  have hpk := Schema.getElem?_of_primaryKey hkey
  have hunassigned : pk.name ∉ (t.assigned e).map (·.1) := by
    intro hmem
    -- Names are not repeated, so a pair with the name of the key would assign the key itself.
    obtain ⟨p, hp, hname⟩ := List.mem_map.1 hmem
    obtain ⟨⟨f, v⟩, hfv, heq⟩ := List.mem_filterMap.1 hp
    simp only at heq
    split_ifs at heq with hprimary
    cases heq
    have hf := (List.of_mem_zip hfv).1
    have hsame : f = pk :=
      List.inj_on_of_nodup_map hnodup hf (List.mem_of_getElem? hpk.1) hname
    exact hprimary (hsame ▸ hpk.2)
  rw [update_eq hkey, hvalue, Option.getD_some]
  refine ⟨_, rfl, ?_, hunassigned, ?_, ?_, ?_⟩
  · refine forall₂_assigned hlength fun j f hf hprimary => ?_
    rw [Nat.zero_add]
    exact htaken j f hf hprimary
  · intro hne
    simp [hne]
  · intro hne
    simp [hne, params_updateOf]
  · intro hnone
    simp [hnone]

end Target

namespace Engine

/-! ### One request -/

/-- The request names a registered resource and a row of it, and asks for an action that the
resource permits and for an answer that can be written. -/
structure Admits (g : Engine) (q : Query) (r : Resource) : Prop where
  named : q.resource ≠ ""
  registered : g.registry.lookup? q.resource = some r
  keyed : q.keyed = true
  written : ∃ format, MediaFormat.ofAccept (g.accept q) = .ok format
  permitted : r.actions.permits q.action = true

section Request

variable {g : Engine} {q : Query} {r : Resource}

/-- A request that is admitted is prepared as its task is. -/
theorem prepare_eq (hq : g.Admits q r) (hcreate : q.action ≠ .create) (d : Dialect) :
    g.prepare d q =
      (g.task (Target.make r (g.space q) d) q).map fun task =>
        ⟨Target.make r (g.space q) d, task⟩ := by
  have hkey : checkKey q = .ok () := by
    unfold checkKey
    cases haction : q.action <;> simp [hq.keyed]
    exact absurd haction hcreate
  have hcheck : g.check q = .ok r :=
    check_eq_ok_iff.2 ⟨hq.named, hq.registered, hkey, hq.written, hq.permitted⟩
  rw [prepare_eq_check, hcheck]
  rfl

variable {O : Oracle} {k : Connection} {h h₁ : History}

/-- A request that is refused calls nothing. -/
theorem execute_of_refused {p : Problem} (hprepare : g.prepare O.dialect q = .error p) :
    ∃ e, (g.execute O.store q).on h = (.error (.error e), h) := by
  rw [execute_on]
  have hrefused : g.prepare O.store.dialect q = .error p := hprepare
  rw [hrefused]
  exact ⟨_, rfl⟩

/-- Once its transaction has begun, a request makes the calls of its work, and then ends the
transaction. -/
theorem execute_of_begin {plan : Plan} (hprepare : g.prepare O.dialect q = .ok plan)
    (hbegin : (O.store.begin q.context).on h = (.ok k, h₁)) {asked : History}
    {result : Except Stop Output}
    (hrun : (g.run O.store plan k).on h₁ = (result, h₁ ++ asked)) :
    ∃ ending fin ended, (g.execute O.store q).on h =
        (ending, h₁ ++ asked ++ [.control k fin ended]) ∧
      ((∃ output, ending = .ok output) → ∃ output, result = .ok output) := by
  obtain ⟨ending, fin, ended, howned, -, hcommit, -, hending⟩ :=
    O.runOwned_of_begin hbegin hrun
  have hplan : g.prepare O.store.dialect q = .ok plan := hprepare
  have hresult : (∃ output, ending = .ok output) → ∃ output, result = .ok output :=
    fun hok => (hcommit.1 (hending.1 hok).1).2
  rw [execute_on, hplan]
  simp only [howned]
  rcases ending with (e | message) | output
  · exact ⟨_, fin, ended, rfl, fun hok => nomatch hok⟩
  · exact ⟨_, fin, ended, rfl, fun hok => nomatch hok⟩
  · exact ⟨_, fin, ended, rfl, hresult⟩

end Request

section Calls

variable {O : Oracle} {g : Registry} {t : Target} {k : Connection} {h : History}

theorem query_on (sql : Sql) :
    (O.store.query k sql).on h = (O.query h k sql, h ++ [.query k sql (O.query h k sql)]) := rfl

/-- Writing a row is one query. -/
theorem writtenRow_on (sql : Sql) (p : Problem) :
    ∃ result, (writtenRow O.store t k sql p).on h =
      (result, h ++ [.query k sql (O.query h k sql)]) := by
  rw [writtenRow, Work.on_bind, firstRow, Work.on_bind, query_on]
  rcases O.query h k sql with stop | (_ | ⟨row, rows⟩)
  · exact ⟨_, rfl⟩
  · exact ⟨_, rfl⟩
  · simp only [Work.on_pure]
    cases Entity.ofRow t.schema t.schema.indices row <;> exact ⟨_, rfl⟩

/-- A replacement sends one update. -/
theorem replace_on {e : Entity} {sql : Sql} (hsql : t.update e = .ok sql) :
    ∃ result, (replace O.store t k e).on h =
      (result, h ++ [.query k sql (O.query h k sql)]) := by
  have hreplace : replace O.store t k e = writtenRow O.store t k sql .noRows := by
    rw [replace, hsql]
    rfl
  rw [hreplace]
  exact writtenRow_on sql .noRows

/-- A deletion sends one statement. -/
theorem delete_on {key : Value} {sql : Sql} (hsql : t.delete key = .ok sql) :
    ∃ result, (delete O.store t k key).on h =
      (result, h ++ [.query k sql (O.query h k sql)]) := by
  have hdelete : delete O.store t k key = writtenRow O.store t k sql .noRows := by
    rw [delete, hsql]
    rfl
  rw [hdelete]
  exact writtenRow_on sql .noRows

/-- Reading a row is one query, and gives the entity of the first row that it answers. -/
theorem fetchOne_on {key : Value} {projection : List Nat} {select : Sql}
    (hselect : t.selectOne projection key = .ok select) :
    ∃ read, (fetchOne O.store g t k key projection []).on h =
        (read, h ++ [.query k select (O.query h k select)]) ∧
      ∀ stored, read = .ok stored ↔ ∃ row rows, O.query h k select = .ok (row :: rows) ∧
        Entity.ofRow t.schema projection row = .ok stored := by
  rw [fetchOne, hselect]
  simp only [Work.ofExcept, pure_bind, Work.on_bind, firstRow, query_on]
  rcases O.query h k select with stop | (_ | ⟨row, rows⟩)
  · exact ⟨_, rfl, by simp⟩
  · exact ⟨_, rfl, by simp⟩
  · simp only [Work.on_pure]
    cases hrow : Entity.ofRow t.schema projection row with
    | error p => exact ⟨_, rfl, by simp [hrow]⟩
    | ok stored => exact ⟨_, rfl, by simp [hrow]⟩

end Calls

section Writes

variable {O : Oracle} {g : Engine} {t : Target} {k : Connection} {h : History} {pk : Field}
  {key : Value} {i : Nat} {format : MediaFormat} {contentType : String} {body : List UInt8}

/-- The calls of a replacement: one update, in which fields that the body does not name are zero. -/
def Replaces (t : Target) (pk : Field) (key : Value) (k : Connection) (format : MediaFormat)
    (body : List UInt8) (asked : History) : Prop :=
  ∃ written pairs update answer, Body.written? format body = some written ∧
    t.Overwrites pk key written Schema.zeros pairs update ∧
    asked = [.query k update answer]

/-- The calls of a partial update, and how it ends: a selection by the key, and if it gives a row
that can be decoded, and the body can be decoded onto it, one update, in which fields that the body
does not name hold what the row does. Otherwise it ends with an error. -/
inductive PartlyUpdates (t : Target) (pk : Field) (key : Value) (k : Connection)
    (format : MediaFormat) (contentType : String) (body : List UInt8) :
    Except Stop Output → History → Prop where
  | unread {select : Sql} (stop : Stop) (answer : Except Stop (List Row))
    (hselect : t.selectOne t.schema.indices key = .ok select)
    (hunread : ∀ row rows stored, answer = .ok (row :: rows) →
      Entity.ofRow t.schema t.schema.indices row = .ok stored →
        (stored.decode body contentType).2 ≠ .ok ()) :
    PartlyUpdates t pk key k format contentType body (.error stop) [.query k select answer]
  | updated {select update : Sql} {row : Row} {rows : List Row} {stored : Entity}
    {written : List BodyPair} {pairs : List (String × Value)} (ending : Except Stop Output)
    (answer : Except Stop (List Row)) (hselect : t.selectOne t.schema.indices key = .ok select)
    (hstored : Entity.ofRow t.schema t.schema.indices row = .ok stored)
    (hbody : (stored.decode body contentType).2 = .ok ())
    (hwritten : Body.written? format body = some written)
    (hupdate : t.Overwrites pk key written (t.schema.heldIn row) pairs update) :
    PartlyUpdates t pk key k format contentType body ending
      [.query k select (.ok (row :: rows)), .query k update answer]

/-- A partial update that ends with an error has not done more if its request ends with one. -/
theorem PartlyUpdates.of_ending {result ending : Except Stop Output} {asked : History}
    (h : PartlyUpdates t pk key k format contentType body result asked)
    (hending : (∃ output, ending = .ok output) → ∃ output, result = .ok output) :
    PartlyUpdates t pk key k format contentType body ending asked := by
  cases h with
  | unread stop answer hselect hunread =>
    rcases ending with stop' | output
    · exact .unread stop' answer hselect hunread
    · obtain ⟨output', hok⟩ := hending ⟨output, rfl⟩
      cases hok
  | updated result answer hselect hstored hbody hwritten hupdate =>
    exact .updated ending answer hselect hstored hbody hwritten hupdate

/-- The update of an entity that a body has been decoded onto, under the key of the request. -/
theorem overwrites_of_decode (hkey : t.resource.primaryKey = .ok (pk, i))
    (hnodup : t.schema.columns.Nodup) (hformat : MediaFormat.detect contentType = .ok format)
    {base e : Entity} (hschema : base.schema = t.schema)
    (hlength : base.values.length = t.schema.fields.length)
    (hbody : base.decode body contentType = (e, .ok ())) {held : Field × Nat → Option Value}
    (hheld : ∀ j f, t.schema.fields[j]? = some f → held (f, j) = base.getAt? j) :
    ∃ written sql, Body.written? format body = some written ∧ t.update (e.setAt i key) = .ok sql ∧
      t.Overwrites pk key written held (t.assigned (e.setAt i key)) sql := by
  obtain ⟨written, hwritten, -, -, hvalues, htaken⟩ :=
    Entity.exists_written?_of_decode hformat hbody
  have hpk := Schema.getElem?_of_primaryKey hkey
  have hfull : e.values.length = t.schema.fields.length := hvalues.trans hlength
  have hbound : i < e.values.length := by
    rw [hfull]
    exact (List.getElem?_eq_some_iff.1 hpk.1).1
  rw [hschema] at htaken
  have hmerged : ∀ j f, t.schema.fields[j]? = some f → f.primary = false →
      f.taken? written (held (f, j)) = (e.setAt i key).getAt? j := by
    intro j f hf hprimary
    -- The key of the request goes to a primary field, so it covers nothing that the body wrote.
    have hij : i ≠ j := by
      rintro rfl
      obtain rfl : pk = f := Option.some.inj (hpk.1.symm.trans hf)
      rw [hpk.2] at hprimary
      cases hprimary
    have hj : j < base.values.length := by
      rw [hlength]
      exact (List.getElem?_eq_some_iff.1 hf).1
    rw [Entity.getAt?_setAt_of_ne hij, htaken hnodup j f hf hj, hheld j f hf]
  have hkept : (e.setAt i key).values.length = t.schema.fields.length := by
    rw [Entity.length_values_setAt, hfull]
  obtain ⟨sql, hsql, hupdate⟩ :=
    Target.overwrites_update hkey hnodup hkept (Entity.getAt?_setAt hbound key) hmerged
  exact ⟨written, sql, hwritten, hsql, hupdate⟩

/-- What a replacement does on an open transaction. -/
theorem run_replace (hkey : t.resource.primaryKey = .ok (pk, i)) (hnodup : t.schema.columns.Nodup)
    (hformat : MediaFormat.detect contentType = .ok format) {e : Entity}
    (hbody : (Entity.zeroed t.schema).decode body contentType = (e, .ok ())) :
    ∃ result asked, (g.run O.store ⟨t, .replace (e.setAt i key)⟩ k).on h = (result, h ++ asked) ∧
      Replaces t pk key k format body asked := by
  have hzeros : ∀ j f, t.schema.fields[j]? = some f →
      Schema.zeros (f, j) = (Entity.zeroed t.schema).getAt? j :=
    fun j f hf => (Entity.getAt?_zeroed hf).symm
  obtain ⟨written, update, hwritten, hupdate, hoverwrites⟩ :=
    overwrites_of_decode hkey hnodup hformat rfl (Entity.length_values_zeroed t.schema) hbody hzeros
  obtain ⟨result, hreplace⟩ := replace_on (O := O) (k := k) (h := h) hupdate
  unfold run
  simp only [Work.on_bind]
  rw [hreplace]
  rcases result with stop | e'
  · exact ⟨_, _, rfl, written, _, update, _, hwritten, hoverwrites, rfl⟩
  · exact ⟨_, _, rfl, written, _, update, _, hwritten, hoverwrites, rfl⟩

/-- What a partial update does on an open transaction. -/
theorem run_partialUpdate (hkey : t.resource.primaryKey = .ok (pk, i))
    (hnodup : t.schema.columns.Nodup) (hformat : MediaFormat.detect contentType = .ok format) :
    ∃ result asked,
      (g.run O.store ⟨t, .partialUpdate key body contentType⟩ k).on h = (result, h ++ asked) ∧
      PartlyUpdates t pk key k format contentType body result asked := by
  obtain ⟨select, hselect⟩ : ∃ select, t.selectOne t.schema.indices key = .ok select := by
    rw [Target.selectOne, Target.whereKey_eq hkey]
    exact ⟨_, rfl⟩
  obtain ⟨read, hread, hreads⟩ := fetchOne_on (O := O) (g := g.registry) (k := k) (h := h) hselect
  unfold run
  simp only [partialUpdate, hkey, Work.ofExcept, pure_bind, Work.on_bind, hread]
  -- The row may be missing or unreadable, and the body may not fit it; in each case the selection
  -- is all. Otherwise one update follows.
  cases read with
  | error stop =>
    refine ⟨_, _, rfl, .unread stop _ hselect fun row rows stored hrow hstored => ?_⟩
    cases (hreads stored).2 ⟨row, rows, hrow, hstored⟩
  | ok stored =>
    obtain ⟨row, rows, hanswer, hstored⟩ := (hreads stored).1 rfl
    cases hbody : stored.decode body contentType with
    | mk e decoded =>
      cases decoded with
      | error p =>
        simp only [hbody]
        refine ⟨_, _, rfl, .unread _ _ hselect fun row' rows' stored' hrow hstored' => ?_⟩
        obtain rfl : stored = stored' :=
          Except.ok.inj ((hreads stored').2 ⟨row', rows', hrow, hstored'⟩)
        rw [hbody]
        simp
      | ok u =>
        obtain ⟨hschema, -, hlength⟩ := Entity.frame_ofRow hstored
        obtain ⟨written, update, hwritten, hupdate, hoverwrites⟩ :=
          overwrites_of_decode hkey hnodup hformat hschema hlength hbody fun j f hf =>
            Schema.heldIn_of_ofRow hstored hf
        obtain ⟨result, hreplace⟩ := replace_on (O := O) (k := k)
          (h := h ++ [.query k select (.ok (row :: rows))]) hupdate
        simp only [hbody, Work.on_pure, hanswer]
        rw [hreplace, List.append_assoc]
        rcases result with stop | e'
        · exact ⟨_, _, rfl, .updated _ _ hselect hstored (by rw [hbody]) hwritten hoverwrites⟩
        · exact ⟨_, _, rfl, .updated _ _ hselect hstored (by rw [hbody]) hwritten hoverwrites⟩

end Writes

/-! ### Requests -/

section Request

variable {g : Engine} {q : Query} {r : Resource} {O : Oracle} {t : Target} {h : History}
  {pk : Field} {key : Value} {i : Nat} {format : MediaFormat}

/-- A replacement is prepared by decoding its body and setting the key of the path. -/
theorem prepare_replace (hq : g.Admits q r) (hpk : r.primaryKey = .ok (pk, i))
    (ht : t = Target.make r (g.space q) O.dialect) (hkey : t.parseKey q.key = .ok key)
    (haction : q.action = .replace) :
    g.prepare O.dialect q =
      (g.decodeBody r q).map fun e => ⟨t, .replace (e.setAt i key)⟩ := by
  have hcreate : q.action ≠ .create := by simp [haction]
  have hresource : t.resource = r := by rw [ht]; rfl
  rw [prepare_eq hq hcreate, ← ht]
  simp only [task, haction, hkey, hresource, hpk, bind, Except.bind]
  cases g.decodeBody r q <;> rfl

/-- An update in part is prepared without looking at its body. -/
theorem prepare_partialUpdate (hq : g.Admits q r)
    (ht : t = Target.make r (g.space q) O.dialect) (hkey : t.parseKey q.key = .ok key)
    (hformat : MediaFormat.detect (g.contentType q) = .ok format)
    (haction : q.action = .partialUpdate) :
    g.prepare O.dialect q = .ok ⟨t, .partialUpdate key q.body (g.contentType q)⟩ := by
  have hcreate : q.action ≠ .create := by simp [haction]
  rw [prepare_eq hq hcreate, ← ht]
  simp only [task, haction, hkey, hformat, bind, Except.bind]
  rfl

theorem decodeBody_of_error {p : Problem}
    (h : ((Entity.zeroed r.schema).decode q.body (g.contentType q)).2 = .error p) :
    g.decodeBody r q = .error p := by
  unfold decodeBody
  simp only [h]
  rfl

theorem decodeBody_of_ok {e : Entity}
    (h : (Entity.zeroed r.schema).decode q.body (g.contentType q) = (e, .ok ())) :
    g.decodeBody r q = .ok e := by
  unfold decodeBody
  simp only [h]
  rfl

/-- A transaction that has begun is on the next connection. -/
theorem opened_of_begin {c : Context} {k : Connection}
    (h' : ((O.store.begin c).on h).1 = .ok k) :
    (O.store.begin c).on h = (.ok (Oracle.next h), h ++ Oracle.opening c h) := by
  obtain ⟨e, hbegin, -⟩ | ⟨e, hbegin⟩ | ⟨e, hbegin⟩ | hbegin := O.begin_cases c h
  · rw [hbegin] at h'
    cases h'
  · rw [hbegin] at h'
    cases h'
  · rw [hbegin] at h'
    cases h'
  · exact hbegin

/-- Between the beginning and the end of its transaction, a replacement makes one update, and a
partial update reads the row and then makes one update, both on the row with the key of the request.
A replacement whose body cannot be decoded calls nothing. A partial update ends with an error and
updates nothing if the row cannot be read, or the body cannot be decoded onto it. -/
theorem execute_writes {definitions : List Resource}
    (hg : Registry.build definitions = .ok g.registry) (hq : g.Admits q r)
    (hpk : r.primaryKey = .ok (pk, i)) (ht : t = Target.make r (g.space q) O.dialect)
    (hkey : t.parseKey q.key = .ok key)
    (hformat : MediaFormat.detect (g.contentType q) = .ok format)
    (hbegin : ∃ k, ((O.store.begin q.context).on h).1 = .ok k) :
    (q.action = .replace →
      (∀ p, ((Entity.zeroed r.schema).decode q.body (g.contentType q)).2 = .error p →
        ∃ e, (g.execute O.store q).on h = (.error (.error e), h)) ∧
      (((Entity.zeroed r.schema).decode q.body (g.contentType q)).2 = .ok () →
        ∃ ending asked fin ended, (g.execute O.store q).on h =
            (ending, h ++ Oracle.opening q.context h ++ asked ++
              [.control (Oracle.next h) fin ended]) ∧
          Replaces t pk key (Oracle.next h) format q.body asked)) ∧
    (q.action = .partialUpdate →
      ∃ ending asked fin ended, (g.execute O.store q).on h =
          (ending, h ++ Oracle.opening q.context h ++ asked ++
            [.control (Oracle.next h) fin ended]) ∧
        PartlyUpdates t pk key (Oracle.next h) format (g.contentType q) q.body ending asked) := by
  obtain ⟨k, hk⟩ := hbegin
  have hopened := opened_of_begin hk
  have hresource : t.resource = r := by rw [ht]; rfl
  have hschema : t.schema = r.schema := by rw [ht]; rfl
  have hnodup : t.schema.columns.Nodup := by
    rw [hschema]
    have hmem := Registry.mem_of_lookup? hq.registered
    exact Schema.nodup_columns_of_check ((Registry.consistent_of_build hg).schemas r hmem)
  have hpk' : t.resource.primaryKey = .ok (pk, i) := by rw [hresource, hpk]
  -- A replacement looks at its body before the transaction, and an update in part inside of it.
  refine ⟨fun haction => ⟨fun p hbody => ?_, fun hbody => ?_⟩, fun haction => ?_⟩
  · have hprepare := prepare_replace hq hpk ht hkey haction
    rw [decodeBody_of_error hbody] at hprepare
    exact execute_of_refused hprepare
  · obtain ⟨e, hdecoded⟩ : ∃ e, (Entity.zeroed r.schema).decode q.body (g.contentType q) =
        (e, .ok ()) := ⟨_, Prod.ext rfl hbody⟩
    have hprepare := prepare_replace hq hpk ht hkey haction
    rw [decodeBody_of_ok hdecoded] at hprepare
    obtain ⟨result, asked, hrun, hasked⟩ := run_replace (O := O) (g := g) (k := Oracle.next h)
      (h := h ++ Oracle.opening q.context h) hpk' hnodup hformat
      (by rw [hschema]; exact hdecoded)
    obtain ⟨ending, fin, ended, hexecute, -⟩ := execute_of_begin hprepare hopened hrun
    exact ⟨ending, asked, fin, ended, hexecute, hasked⟩
  · have hprepare := prepare_partialUpdate hq ht hkey hformat haction
    obtain ⟨result, asked, hrun, hasked⟩ := run_partialUpdate (O := O) (g := g)
      (k := Oracle.next h) (h := h ++ Oracle.opening q.context h) hpk' hnodup hformat
    obtain ⟨ending, fin, ended, hexecute, hending⟩ := execute_of_begin hprepare hopened hrun
    exact ⟨ending, asked, fin, ended, hexecute, hasked.of_ending hending⟩

/-- An engine with one resource. -/
def serving (r : Resource) : Engine where
  registry := ⟨[r]⟩
  config := .default

/-- A request to write the row 7 of a resource. -/
def writing (r : Resource) (a : Action) (contentType body : String) : Query :=
  ⟨r.name, a, "7", 0, none, [], [], [], none, "", contentType, "", Text.toUtf8 body, false,
    .background⟩

def notes : Resource where
  name := "note"
  schema := ⟨"notes", [⟨"id", .integer, false, true, true⟩, ⟨"title", .text, true, false, false⟩,
    ⟨"stars", .integer, false, false, false⟩], []⟩
  actions := .all

/-- A body that names the title twice, and another key. -/
theorem execute_writes_notes :
    let O := Oracle.accepting [[.integer 7, .text "tea", .integer 3]]
    let t := Target.make notes none .sqlite
    let q := fun a => writing notes a "application/x-www-form-urlencoded" "title=oat&title=rye&id=9"
    (∃ ending asked fin ended, ((serving notes).execute O.store (q .replace)).on [] =
        (ending, Oracle.opening .background [] ++ asked ++ [.control ⟨1⟩ fin ended]) ∧
      Replaces t ⟨"id", .integer, false, true, true⟩ (.integer 7) ⟨1⟩ .form (q .replace).body
        asked) ∧
    ∃ ending asked fin ended, ((serving notes).execute O.store (q .partialUpdate)).on [] =
        (ending, Oracle.opening .background [] ++ asked ++ [.control ⟨1⟩ fin ended]) ∧
      PartlyUpdates t ⟨"id", .integer, false, true, true⟩ (.integer 7) ⟨1⟩ .form
        ((serving notes).contentType (q .partialUpdate)) (q .partialUpdate).body ending asked := by
  intro O t q
  have hbuild : Registry.build [notes] = .ok (serving notes).registry := rfl
  have hanswer : MediaFormat.ofAccept ((serving notes).accept (q .fetch)) = .ok .json :=
    MediaFormat.ofAccept_default
  have hadmits : ∀ a, (serving notes).Admits (q a) notes := fun a =>
    ⟨(by decide : "note" ≠ ""), rfl, (by decide +kernel : ("7" != "") = true), ⟨.json, hanswer⟩,
      by cases a <;> decide +kernel⟩
  have hformat (a : Action) :
      MediaFormat.detect ((serving notes).contentType (q a)) = .ok .form := by
    have hfetch : MediaFormat.detect ((serving notes).contentType (q .fetch)) = .ok .form := by
      decide +kernel
    exact hfetch
  have hbody : ((Entity.zeroed notes.schema).decode (q .replace).body
      ((serving notes).contentType (q .replace))).2 = .ok () := by
    unfold Entity.decode
    rw [hformat]
    decide +kernel
  have hkey : t.parseKey "7" = .ok (.integer 7) := by decide +kernel
  have hbegin : ∃ k, ((O.store.begin .background).on []).1 = .ok k := ⟨⟨1⟩, rfl⟩
  have hreplaces := execute_writes (q := q .replace) hbuild (hadmits .replace) rfl rfl hkey
    (hformat _) hbegin
  have hmerges := execute_writes (q := q .partialUpdate) hbuild (hadmits .partialUpdate) rfl rfl
    hkey (hformat _) hbegin
  exact ⟨(hreplaces.1 rfl).2 hbody, hmerges.2 rfl⟩

/-- A row that is nothing but a key. -/
def tags : Resource where
  name := "tag"
  schema := ⟨"tags", [⟨"id", .integer, false, true, false⟩], []⟩
  actions := .all

/-- The text and the parameters of a statement that reads or writes rows. -/
def statement? (d : Dialect) : Exchange → Option Statement
  | .query _ sql _ | .execute _ sql _ => some (Sql.build d sql)
  | _ => none

/-- The replacement of a row that is nothing but a key assigns the key. -/
theorem execute_tags_assigns_key :
    let O := Oracle.accepting [[.integer 7]]
    let q := writing tags .replace "application/json" "\x7b\x7d"
    (((serving tags).execute O.store q).on []).2.filterMap (statement? .sqlite) =
      [⟨"UPDATE \"tags\" SET \"id\" = ? WHERE \"id\" = ? RETURNING \"id\"",
        [.integer 7, .integer 7]⟩] := by
  decide +kernel

end Request

end Engine

end ResourceEngine
