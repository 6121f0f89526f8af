import ResourceEngine.Proofs.Codec.Overriding
import ResourceEngine.Proofs.Codec.RoundTrip
import ResourceEngine.Proofs.Engine.Evaluation
import ResourceEngine.Proofs.Engine.Writing
import ResourceEngine.Proofs.Statement.Keys

/-!
# What statements bind

A statement that writes a row binds values to columns, and one for a row with a key binds the key.
What comes from a body has been accepted by its field, what the body leaves out is zero or has been
read from the stored row, and the key has been parsed; so every value that is bound fits its column,
but for a null that was stored there before.
-/

namespace ResourceEngine

open Sql

/-! ### Values of fields -/

/-- The value is null or of the kind of the field, so that converting it changes nothing. -/
structure Field.Reads (f : Field) (v : Value) : Prop where
  kind : v = .null ∨ f.kind.admits v = true
  coerce : f.kind.coerce v = .ok v

namespace Field

variable {f : Field} {u v w : Value} {given : Option Value}

theorem reads_null (f : Field) : f.Reads .null := ⟨.inl rfl, rfl⟩

/-- A value that the kind of a field admits can be read from the field. -/
theorem reads_of_admits (h : f.kind.admits v = true) : f.Reads v :=
  ⟨.inr h, Kind.coerce_of_admits h⟩

theorem Holds.reads (h : f.Holds v) : f.Reads v := by
  obtain ⟨rfl, -⟩ | h := h
  · exact f.reads_null
  · exact reads_of_admits h

/-- A value that has been coerced to the kind of a field can be read from it. -/
theorem reads_of_coerce (h : f.kind.coerce u = .ok v) : f.Reads v := by
  unfold Kind.coerce at h
  split_ifs at h
  · cases h
    exact f.reads_null
  · split at h <;> cases h
    next hconvert => exact reads_of_admits (Kind.admits_of_convert? hconvert)

/-- What a field accepts it can hold. -/
theorem Accepts.holds (h : f.Accepts given v) : f.Holds v := by
  obtain ⟨u, -, hu⟩ := h.converts
  obtain rfl | hkind := (reads_of_coerce hu).kind
  · exact .inl ⟨rfl, h.nullable rfl⟩
  · exact .inr hkind

/-- A field can hold its own zero. -/
theorem holds_zero (f : Field) : f.Holds f.zero := by
  unfold Field.zero
  split_ifs with hnullable
  · exact .inl ⟨rfl, hnullable⟩
  · exact .inr f.kind.admits_zero

end Field

namespace Entity

variable {e e' : Entity} {body : List UInt8} {contentType : String} {format : MediaFormat}
  {written : List BodyPair} {f : Field} {i : Nat} {v : Value} {held : Option Value}

/-- After decoding, what a field takes from the body may stand in it. What it does not take from
there it has held before, and the body does not name it. -/
theorem holds_of_taken? (h : e.decode body contentType = (e', .ok ()))
    (hformat : MediaFormat.detect contentType = .ok format)
    (hwritten : Body.written? format body = some written) (hnodup : e.schema.columns.Nodup)
    (hf : e.schema.fields[i]? = some f) (htaken : f.taken? written held = some v) :
    f.Holds v ∨ f.name ∉ written.map (·.1) ∧ held = some v := by
  unfold Field.taken? at htaken
  cases hlast : lastFor f.name written with
  | none =>
    rw [hlast] at htaken
    refine .inr ⟨fun hmem => ?_, htaken⟩
    obtain ⟨pair, hpair, hname⟩ := List.mem_map.1 hmem
    obtain ⟨u, hu⟩ := exists_lastFor_of_mem hpair
    rw [hname, hlast] at hu
    cases hu
  | some u =>
    rw [hlast] at htaken
    obtain ⟨format', pairs, hformat', hpairs, hassign⟩ := exists_assign_of_decode h
    obtain rfl := Except.ok.inj (hformat.symm.trans hformat')
    obtain ⟨written', hwritten', hsame⟩ := Body.exists_written?_of_pairs hpairs
    obtain rfl := Option.some.inj (hwritten.symm.trans hwritten')
    have hcolumn : e.schema.columns[i]? = some f.name := by
      rw [Schema.getElem?_columns, hf, Option.map_some]
    have hfield : e.schema.field? f.name = some f := by
      rw [Schema.field?_eq, Schema.fieldIndex?_of_nodup hnodup hcolumn]
      exact hf
    have hmem := mem_of_lastFor ((hsame f.name).trans hlast)
    cases haccept : accept f u with
    | error p =>
      -- a value that the field refuses would have ended the decoding
      exact absurd ⟨f, hfield, accept_eq_error_iff.1 haccept⟩
        (forall_not_offends_of_assign hassign _ hmem p)
    | ok w =>
      have hvalue := coerce_of_accept haccept
      simp only at htaken
      rw [htaken] at hvalue
      cases hvalue
      exact .inl (accept_eq_ok_iff.1 haccept).holds

end Entity

/-! ### Statements -/

namespace Target

variable {t : Target} {pairs : List (String × Value)} {pk : Field} {key : Value} {i : Nat}
  {sql : Sql}

/-- The statement binds values to columns of the row that it writes, and a key to the column by
which it picks one row. -/
inductive Binds (t : Target) : List (String × Value) → Option (String × Value) → Sql → Prop where
  | defaults : Binds t [] none
    (.token .INSERT :: .token .INTO :: t.table ++ [.token .DEFAULT, .token .VALUES] ++ t.returning)
  | insert (pairs : List (String × Value)) : Binds t pairs none
    (.token .INSERT :: .token .INTO :: t.table ++
      (parens (identList (pairs.map (·.1))) ++
        .token .VALUES :: parens (paramList (pairs.map (·.2)))) ++ t.returning)
  | select (projection : List Nat) (column : String) (key : Value) : Binds t [] (some (column, key))
    (t.selectFrom (t.columns projection) ++ [.token .WHERE, .ident column, .token .EQ, .param key])
  | update (pairs : List (String × Value)) (column : String) (key : Value) :
    Binds t pairs (some (column, key))
      (.token .UPDATE :: t.table ++ .token .SET :: assignments pairs ++
        [.token .WHERE, .ident column, .token .EQ, .param key] ++ t.returning)
  | delete (column : String) (key : Value) : Binds t [] (some (column, key))
    (.token .DELETE :: .token .FROM :: t.table ++
      [.token .WHERE, .ident column, .token .EQ, .param key] ++ t.returning)

/-- The values that are bound are the parameters, in order. -/
theorem Binds.params_eq {picked : Option (String × Value)} (h : t.Binds pairs picked sql) :
    params sql = pairs.map (·.2) ++ picked.toList.map (·.2) := by
  cases h <;> simp [table, returning, selectFrom, columns]

/-- Each value stands in a column where it is right, and the key is of the kind of the primary key.
-/
structure Fits (t : Target) (right : Nat → Field → Value → Prop) (pairs : List (String × Value))
    (picked : Option (String × Value)) : Prop where
  values : ∀ pair ∈ pairs, ∃ i f, t.schema.fields[i]? = some f ∧ f.name = pair.1 ∧
    right i f pair.2 ∧ f.Reads pair.2
  key : ∀ pair ∈ picked, ∃ pk i, t.resource.primaryKey = .ok (pk, i) ∧ pk.name = pair.1 ∧
    pk.kind.admits pair.2 = true ∧ pk.Reads pair.2

/-- A statement that only picks a row. -/
theorem fits_key (right : Nat → Field → Value → Prop)
    (hpk : t.resource.primaryKey = .ok (pk, i)) (hkey : pk.kind.admits key = true) :
    t.Fits right [] (some (pk.name, key)) where
  values := List.forall_mem_nil _
  key := by
    rintro _ ⟨⟩
    exact ⟨pk, i, hpk, rfl, hkey, Field.reads_of_admits hkey⟩

variable {right : Nat → Field → Value → Prop}

/-- An insert binds values of the entity under the names of their fields. -/
theorem exists_binds_insert {e : Entity}
    (he : ∀ i f v, t.schema.fields[i]? = some f → e.getAt? i = some v → right i f v ∧ f.Reads v) :
    ∃ pairs, t.Binds pairs none (t.insert e) ∧ t.Fits right pairs none := by
  refine ⟨(t.insertedColumns e).map fun c => (c.1.name, c.2), ?_, fun pair hpair => ?_, nofun⟩
  · unfold insert
    dsimp only
    split_ifs with hempty
    · rw [List.isEmpty_iff.1 hempty]
      exact .defaults
    · have hinsert := Binds.insert (t := t) ((t.insertedColumns e).map fun c => (c.1.name, c.2))
      simpa only [List.map_map, Function.comp_def] using hinsert
  · obtain ⟨⟨f, v⟩, hfv, rfl⟩ := List.mem_map.1 hpair
    obtain ⟨i, hi⟩ := List.mem_iff_getElem?.1 (List.mem_of_mem_filter hfv)
    obtain ⟨hf, hv⟩ := List.getElem?_zip_eq_some.1 hi
    exact ⟨i, f, hf, rfl, he i f v hf hv⟩

/-- An update fits if what is taken is right; a key that is assigned itself is right as such. -/
theorem Overwrites.exists_binds {written : List BodyPair} {held : Field × Nat → Option Value}
    (h : t.Overwrites pk key written held pairs sql)
    (hpk : t.resource.primaryKey = .ok (pk, i)) (hkey : pk.kind.admits key = true)
    (hright : right i pk key)
    (htaken : ∀ j f v, t.schema.fields[j]? = some f → f.taken? written (held (f, j)) = some v →
      right j f v ∧ f.Reads v) :
    ∃ pairs picked, t.Binds pairs picked sql ∧ t.Fits right pairs picked := by
  have hpicked := (fits_key right hpk hkey).key
  by_cases hnone : pairs = []
  · rw [h.alone hnone]
    refine ⟨_, _, .update [(pk.name, key)] pk.name key, ?_, hpicked⟩
    rw [List.forall_mem_singleton]
    exact ⟨i, pk, (Schema.getElem?_of_primaryKey hpk).1, rfl, hright, Field.reads_of_admits hkey⟩
  · rw [h.statement hnone]
    refine ⟨_, _, .update pairs pk.name key, fun pair hpair => ?_, hpicked⟩
    obtain ⟨⟨f, j⟩, hmem, hname, hvalue⟩ := exists_mem_of_forall₂ h.merges hpair
    have hf := List.mk_mem_zipIdx_iff_getElem?.1 (List.mem_of_mem_filter hmem)
    exact ⟨j, f, hf, hname.symm, htaken j f _ hf hvalue⟩

end Target

/-! ### Calls of a request -/

/-- Each statement on data among the calls is of this sort, given the calls before it. -/
def History.Sends (sends : History → Sql → Prop) : History → History → Prop
  | _, [] => True
  | past, x :: new =>
    (∀ sql, x.statement? = some sql → sends past sql) ∧ Sends sends (past ++ [x]) new

namespace History

variable {sends : History → Sql → Prop} {past past' a b : History}

/-- Without statements on data nothing is sent. -/
theorem sends_of_none (h : ∀ x ∈ a, x.statement? = none) : Sends sends past a := by
  induction a generalizing past with
  | nil => trivial
  | cons x a ih =>
    obtain ⟨hx, ha⟩ := List.forall_mem_cons.1 h
    exact ⟨fun sql hsql => (nomatch hx.symm.trans hsql), ih ha⟩

/-- What is sent later has more before it. -/
theorem Sends.append (ha : Sends sends past a) (hb : Sends sends (past ++ a) b) :
    Sends sends past (a ++ b) := by
  induction a generalizing past with
  | nil => rwa [List.append_nil] at hb
  | cons x a ih =>
    refine ⟨ha.1, ih ha.2 ?_⟩
    rwa [List.append_assoc]

theorem Sends.mono {sends' : History → Sql → Prop} (ha : Sends sends past a)
    (h : ∀ past sql, sends past sql → sends' past sql) : Sends sends' past a := by
  induction a generalizing past with
  | nil => trivial
  | cons x a ih => exact ⟨fun sql hsql => h past sql (ha.1 sql hsql), ih ha.2⟩

/-- The past of a part may be longer, if what is sent does not mind. -/
theorem Sends.after (hsends : ∀ before past sql, sends past sql → sends (before ++ past) sql)
    (ha : Sends sends past a) (before : History) : Sends sends (before ++ past) a := by
  induction a generalizing past with
  | nil => trivial
  | cons x a ih =>
    refine ⟨fun sql hsql => hsends before past sql (ha.1 sql hsql), ?_⟩
    rw [List.append_assoc]
    exact ih ha.2

/-- A call sends what its work does. -/
theorem sends_of_encloses (hsends : ∀ before past sql, sends past sql → sends (before ++ past) sql)
    (ha : Oracle.Encloses (fun _ => Sends sends []) a) : Sends sends [] a := by
  obtain @⟨before, inside, after, hbefore, hinside, hafter⟩ := ha
  refine Sends.append (Sends.append (sends_of_none hbefore) ?_) (sends_of_none hafter)
  rw [List.nil_append]
  obtain rfl | ⟨-, hinside⟩ := hinside
  · trivial
  · exact List.append_nil before ▸ hinside.after hsends before

end History

namespace Engine

variable {g : Engine} {q : Query} {t : Target} {past : History} {f : Field} {i : Nat}

/-- A partial update leaves null where it was: in the row with the key of the request, which has been
read before, and the body does not name the field. -/
structure KeepsNull (g : Engine) (q : Query) (t : Target) (past : History) (i : Nat) (f : Field) :
    Prop where
  action : q.action = .partialUpdate
  stored : ∃ key select k row rows, t.parseKey q.key = .ok key ∧
    t.selectOne t.schema.indices key = .ok select ∧ .query k select (.ok (row :: rows)) ∈ past ∧
    row[i]? = some .null
  unnamed : ∀ format written, MediaFormat.detect (g.contentType q) = .ok format →
    Body.written? format q.body = some written → f.name ∉ written.map (·.1)

/-- The value may stand in the field, or it is a null that is left there. -/
def MayBind (g : Engine) (q : Query) (t : Target) (past : History) (i : Nat) (f : Field) (v : Value) :
    Prop :=
  f.Holds v ∨ v = .null ∧ g.KeepsNull q t past i f

/-- The statement binds values that fit, and no others. -/
def BindsFitting (g : Engine) (q : Query) (t : Target) (past : History) (sql : Sql) : Prop :=
  ∃ pairs picked, t.Binds pairs picked sql ∧
    params sql = pairs.map (·.2) ++ picked.toList.map (·.2) ∧
    t.Fits (g.MayBind q t past) pairs picked

/-- A statement that binds fitting values is fitting. -/
theorem bindsFitting_of {sql : Sql} {pairs : List (String × Value)}
    {picked : Option (String × Value)} (hbinds : t.Binds pairs picked sql)
    (hfits : t.Fits (g.MayBind q t past) pairs picked) : g.BindsFitting q t past sql :=
  ⟨pairs, picked, hbinds, hbinds.params_eq, hfits⟩

/-- A null that has been read earlier may be kept later as well. -/
theorem KeepsNull.after (h : g.KeepsNull q t past i f) (before : History) :
    g.KeepsNull q t (before ++ past) i f := by
  obtain ⟨key, select, k, row, rows, hkey, hselect, hmem, hnull⟩ := h.stored
  exact ⟨h.action, ⟨key, select, k, row, rows, hkey, hselect, List.mem_append_right before hmem,
    hnull⟩, h.unnamed⟩

/-- A statement stays fitting when more has happened before. -/
theorem bindsFitting_after (before past : History) (sql : Sql) (h : g.BindsFitting q t past sql) :
    g.BindsFitting q t (before ++ past) sql := by
  obtain ⟨pairs, picked, hbinds, hparams, hfits⟩ := h
  refine ⟨pairs, picked, hbinds, hparams, fun pair hpair => ?_, hfits.key⟩
  obtain ⟨i, f, hf, hname, hright, hreads⟩ := hfits.values pair hpair
  exact ⟨i, f, hf, hname, hright.imp_right (And.imp_right fun h => h.after before), hreads⟩

/-- A body that has been decoded for a request was decoded into an entity of zeros. -/
theorem decode_of_decodeBody {r : Resource} {e : Entity} (h : g.decodeBody r q = .ok e) :
    (Entity.zeroed r.schema).decode q.body (g.contentType q) = (e, .ok ()) := by
  obtain ⟨⟨⟩, hdecoded, h⟩ := Filter.exists_of_bind h
  cases h
  exact Prod.ext rfl hdecoded

/-- What a field takes from the body of the request, or else holds as zero, may be bound. -/
theorem mayBind_of_zeroed {e : Entity} {format : MediaFormat} {written : List BodyPair} {v : Value}
    (hnodup : t.schema.columns.Nodup) (hbody : g.decodeBody t.resource q = .ok e)
    (hformat : MediaFormat.detect (g.contentType q) = .ok format)
    (hwritten : Body.written? format q.body = some written) (hf : t.schema.fields[i]? = some f)
    (htaken : f.taken? written (some f.zero) = some v) : g.MayBind q t past i f v ∧ f.Reads v := by
  have hholds : f.Holds v := by
    obtain hholds | ⟨-, hzero⟩ :=
      Entity.holds_of_taken? (decode_of_decodeBody hbody) hformat hwritten hnodup hf htaken
    · exact hholds
    · cases hzero
      exact f.holds_zero
  exact ⟨.inl hholds, hholds.reads⟩

/-- What a field takes from the body of a partial update, or else from the row that has been read, may
be bound. -/
theorem mayBind_of_stored {key : Value} {select : Sql} {k : Connection} {row : Row} {rows : List Row}
    {stored : Entity} {format : MediaFormat} {written : List BodyPair} {v : Value}
    (hnodup : t.schema.columns.Nodup) (haction : q.action = .partialUpdate)
    (hkey : t.parseKey q.key = .ok key) (hselect : t.selectOne t.schema.indices key = .ok select)
    (hstored : Entity.ofRow t.schema t.schema.indices row = .ok stored)
    (hbody : (stored.decode q.body (g.contentType q)).2 = .ok ())
    (hformat : MediaFormat.detect (g.contentType q) = .ok format)
    (hwritten : Body.written? format q.body = some written) (hf : t.schema.fields[i]? = some f)
    (htaken : f.taken? written (t.schema.heldIn row (f, i)) = some v) :
    g.MayBind q t [.query k select (.ok (row :: rows))] i f v ∧ f.Reads v := by
  have hschema := (Entity.frame_ofRow hstored).1
  obtain hholds | ⟨hunnamed, hheld⟩ := Entity.holds_of_taken? (Prod.ext rfl hbody) hformat
    hwritten (hschema ▸ hnodup) (hschema ▸ hf) htaken
  · exact ⟨.inl hholds, hholds.reads⟩
  obtain ⟨u, w, hrow, hu, hw⟩ := Entity.exists_coerce_of_ofRow hstored hf
  obtain rfl : w = v := by
    rw [Schema.heldIn_of_ofRow hstored hf, hw] at hheld
    exact Option.some.inj hheld
  have hreads := Field.reads_of_coerce hu
  refine ⟨?_, hreads⟩
  obtain rfl | hkind := hreads.kind
  · -- only a stored null is read as null
    obtain rfl := Kind.eq_null_of_coerce hu
    refine .inr ⟨rfl, haction, ⟨key, select, k, row, rows, hkey, hselect,
      List.mem_singleton_self _, hrow⟩, fun format' written' hformat' hwritten' => ?_⟩
    obtain rfl := Except.ok.inj (hformat.symm.trans hformat')
    obtain rfl := Option.some.inj (hwritten.symm.trans hwritten')
    exact hunnamed
  · exact .inl (.inr hkind)

variable {O : Oracle} {k : Connection} {h : History}

/-- One query sends its own statement. -/
theorem sends_query {sends : History → Sql → Prop} {sql : Sql} (answer : Except Stop (List Row))
    (hsql : sends past sql) : History.Sends sends past [.query k sql answer] := by
  refine ⟨?_, trivial⟩
  rintro _ ⟨⟩
  exact hsql

/-- Work that sends one query and gives an entity. -/
theorem sends_entity {w : Work History Entity} {sql : Sql}
    (hrun : ∃ result, w.on h = (result, h ++ [.query k sql (O.query h k sql)]))
    (hsql : g.BindsFitting q t [] sql) :
    ∃ inside, ((do return Output.entity (← w) : Work History Output).on h).2 = h ++ inside ∧
      History.Sends (g.BindsFitting q t) [] inside := by
  obtain ⟨result, hrun⟩ := hrun
  refine ⟨[.query k sql (O.query h k sql)], ?_, sends_query _ hsql⟩
  rw [Work.on_bind, hrun]
  cases result <;> rfl

section

variable (hnodup : t.schema.columns.Nodup) {e : Entity} {pk : Field} {key : Value}

include hnodup

/-- An insert of a decoded body binds fitting values. -/
theorem bindsFitting_insert (hbody : g.decodeBody t.resource q = .ok e) :
    g.BindsFitting q t past (t.insert e) := by
  have hdecode := decode_of_decodeBody hbody
  obtain ⟨format, -, hformat, -⟩ := Entity.exists_assign_of_decode hdecode
  obtain ⟨written, hwritten, hschema, -, hlength, htaken⟩ :=
    Entity.exists_written?_of_decode hformat hdecode
  have hright : ∀ i f v, t.schema.fields[i]? = some f → e.getAt? i = some v →
      g.MayBind q t past i f v ∧ f.Reads v := by
    intro i f v hf hv
    have hi : i < (Entity.zeroed t.schema).values.length := by
      rw [Entity.length_values_zeroed]
      exact (List.getElem?_eq_some_iff.1 hf).1
    have hzero : (Entity.zeroed t.resource.schema).getAt? i = some f.zero := Entity.getAt?_zeroed hf
    have hvalue := htaken hnodup i f hf hi
    rw [hv, hzero] at hvalue
    exact mayBind_of_zeroed hnodup hbody hformat hwritten hf hvalue.symm
  obtain ⟨pairs, hbinds, hfits⟩ := Target.exists_binds_insert hright
  exact bindsFitting_of hbinds hfits

/-- A replacement sends an update that binds fitting values and the key of the path. -/
theorem sends_replace (hkey : pk.kind.admits key = true)
    (hpk : t.resource.primaryKey = .ok (pk, i)) (hbody : g.decodeBody t.resource q = .ok e) :
    ∃ inside, ((g.run O.store ⟨t, .replace (e.setAt i key)⟩ k).on h).2 = h ++ inside ∧
      History.Sends (g.BindsFitting q t) [] inside := by
  have hdecode := decode_of_decodeBody hbody
  obtain ⟨format, -, hformat, -⟩ := Entity.exists_assign_of_decode hdecode
  have hcalls : ∃ result asked,
      (g.run O.store ⟨t, .replace (e.setAt i key)⟩ k).on h = (result, h ++ asked) ∧
        Replaces t pk key k format q.body asked := run_replace hpk hnodup hformat hdecode
  obtain ⟨result, inside, hrun, written, pairs, update, answer, hwritten, hoverwrites, rfl⟩ := hcalls
  obtain ⟨pairs, picked, hbinds, hfits⟩ :=
    hoverwrites.exists_binds hpk hkey (.inl (.inr hkey)) fun j f v hf htaken =>
      mayBind_of_zeroed hnodup hbody hformat hwritten hf htaken
  exact ⟨_, congrArg Prod.snd hrun, sends_query answer (bindsFitting_of hbinds hfits)⟩

/-- An update in part sends a selection by the key, and then an update that binds the values of the
body or those that have just been read. -/
theorem sends_partialUpdate (haction : q.action = .partialUpdate)
    (hparsed : t.parseKey q.key = .ok key) (hkey : pk.kind.admits key = true)
    (hpk : t.resource.primaryKey = .ok (pk, i)) {format : MediaFormat}
    (hformat : MediaFormat.detect (g.contentType q) = .ok format) :
    ∃ inside, ((g.run O.store ⟨t, .partialUpdate key q.body (g.contentType q)⟩ k).on h).2 =
        h ++ inside ∧
      History.Sends (g.BindsFitting q t) [] inside := by
  have hcalls : ∃ result asked,
      (g.run O.store ⟨t, .partialUpdate key q.body (g.contentType q)⟩ k).on h =
        (result, h ++ asked) ∧
        PartlyUpdates t pk key k format (g.contentType q) q.body result asked :=
    run_partialUpdate hpk hnodup hformat
  obtain ⟨result, inside, hrun, hcalls⟩ := hcalls
  have hselects {past : History} {select : Sql}
      (hselect : t.selectOne t.schema.indices key = .ok select) :
      g.BindsFitting q t past select := by
    rw [Target.selectOne, Target.whereKey_eq hpk] at hselect
    cases hselect
    exact bindsFitting_of (.select t.schema.indices pk.name key) (Target.fits_key _ hpk hkey)
  refine ⟨inside, congrArg Prod.snd hrun, ?_⟩
  cases hcalls with
  | unread stop answer hselect => exact sends_query answer (hselects hselect)
  | @updated select update row rows stored written pairs ending answer hselect hstored hbody
      hwritten hupdate =>
    refine History.Sends.append (a := [_]) (sends_query _ (hselects hselect))
      (sends_query answer ?_)
    obtain ⟨pairs, picked, hbinds, hfits⟩ :=
      hupdate.exists_binds hpk hkey (.inl (.inr hkey)) fun j f v =>
        mayBind_of_stored hnodup haction hparsed hselect hstored hbody hformat hwritten
    exact bindsFitting_of hbinds hfits

end

/-- The statements of a write on its transaction bind values that fit. -/
theorem sends_run (hg : g.registry.Consistent) {plan : Plan}
    (ht : plan.target.resource ∈ g.registry.resources)
    (hchecked : g.Checked q plan.target plan.task) (haction : q.action ≠ .fetch) :
    ∃ inside, ((g.run O.store plan k).on h).2 = h ++ inside ∧
      History.Sends (g.BindsFitting q plan.target) [] inside := by
  obtain ⟨t, task⟩ := plan
  have hnodup : t.schema.columns.Nodup := Schema.nodup_columns_of_check (hg.schemas t.resource ht)
  cases hchecked with
  | fetchOne _ _ _ hfetch | fetchPage _ _ _ hfetch => exact absurd hfetch haction
  | create hbody =>
    exact sends_entity (writtenRow_on _ .insertReturnedNothing) (bindsFitting_insert hnodup hbody)
  | replace hkey hpk hbody =>
    exact sends_replace hnodup (Target.admits_of_parseKey hpk hkey) hpk hbody
  | partialUpdate hformat hkey haction =>
    obtain ⟨⟨pk, i⟩, hpk⟩ := exists_primaryKey_of_parseKey hkey
    exact sends_partialUpdate hnodup haction hkey (Target.admits_of_parseKey hpk hkey) hpk hformat
  | @delete key hkey =>
    obtain ⟨⟨pk, i⟩, hpk⟩ := exists_primaryKey_of_parseKey hkey
    have hdelete : t.delete key = .ok (.token .DELETE :: .token .FROM :: t.table ++
        [.token .WHERE, .ident pk.name, .token .EQ, .param key] ++ t.returning) := by
      rw [Target.delete, Target.whereKey_eq hpk]
      rfl
    exact sends_entity (delete_on hdelete) (bindsFitting_of (.delete pk.name key)
      (Target.fits_key _ hpk (Target.admits_of_parseKey hpk hkey)))

end Engine

end ResourceEngine
