import ResourceEngine.Codec.Body
import ResourceEngine.Document

/-!
# Documents in bodies

How deep documents are nested, and which of their values a format keeps. A reader stops at a depth,
and entities whose relations are loaded one level deep stay far above it.
-/

namespace ResourceEngine

/-- A value of this sort is read back as it was written: in JSON all but the reals, and in CBOR all
but NaN. -/
def MediaFormat.keeps : MediaFormat → Value → Bool
  | .json, .real _ => false
  | .cbor, .real x => !x.isNaN
  | _, _ => true

namespace Document

/-- What an entry of a record is read back as: under its name, and with its value if it has one that
the format keeps. -/
def Keeps (format : MediaFormat) (entry : String × Document) (pair : BodyPair) : Prop :=
  entry.1 = pair.1 ∧ ∀ v, entry.2 = .value v → format.keeps v = true → pair.2 = some v

/-! ### Nesting -/

mutual

/-- The levels of nesting. A value may be a list of octets. -/
def depth : Document → Nat
  | .value _ => 2
  | .natural _ => 1
  | .list items => depthItems items + 1
  | .record entries => depthEntries entries + 1

def depthItems : List Document → Nat
  | [] => 1
  | d :: ds => max d.depth (depthItems ds)

def depthEntries : List (String × Document) → Nat
  | [] => 1
  | (_, d) :: rest => max d.depth (depthEntries rest)

end

theorem one_le_depthItems (items : List Document) : 1 ≤ depthItems items := by
  induction items with
  | nil => exact Nat.le_refl 1
  | cons d items ih => exact Nat.le_trans ih (Nat.le_max_right ..)

theorem one_le_depthEntries (entries : List (String × Document)) : 1 ≤ depthEntries entries := by
  induction entries with
  | nil => exact Nat.le_refl 1
  | cons e entries ih => exact Nat.le_trans ih (Nat.le_max_right ..)

theorem depthEntries_le {entries : List (String × Document)} {n : Nat} (hn : 1 ≤ n)
    (h : ∀ e ∈ entries, e.2.depth ≤ n) : depthEntries entries ≤ n := by
  induction entries with
  | nil => exact hn
  | cons e entries ih =>
    rw [List.forall_mem_cons] at h
    exact Nat.max_le.2 ⟨h.1, ih h.2⟩

theorem depthItems_le {items : List Document} {n : Nat} (hn : 1 ≤ n)
    (h : ∀ d ∈ items, d.depth ≤ n) : depthItems items ≤ n := by
  induction items with
  | nil => exact hn
  | cons d items ih =>
    rw [List.forall_mem_cons] at h
    exact Nat.max_le.2 ⟨h.1, ih h.2⟩

theorem ofRelations_eq_map (rs : List (String × Related)) :
    ofRelations rs = rs.map fun r => (r.1, ofRelated r.2) := by
  induction rs with
  | nil => rfl
  | cons r rs ih => rw [List.map_cons, ← ih, ofRelations]

theorem ofEntities_eq_map (es : List Entity) : ofEntities es = es.map ofEntity := by
  induction es with
  | nil => rfl
  | cons e es ih => rw [List.map_cons, ← ih, ofEntities]

theorem ofEntity_eq (e : Entity) :
    ofEntity e = .record (ofFields e.schema e.values ++ ofRelations e.relations) := by
  cases e
  rfl

theorem depth_of_mem_ofFields {s : Schema} {vs : List Value} {e : String × Document}
    (he : e ∈ ofFields s vs) : e.2.depth = 2 := by
  obtain ⟨⟨f, v⟩, -, rfl⟩ := List.mem_map.1 he
  rfl

theorem depth_ofEntity_of_relations {e : Entity} (he : e.relations = []) :
    (ofEntity e).depth ≤ 3 := by
  rw [ofEntity_eq, he, ofRelations, List.append_nil, depth]
  refine Nat.succ_le_succ (depthEntries_le (by omega) fun entry hentry => ?_)
  exact Nat.le_of_eq (depth_of_mem_ofFields hentry)

theorem depth_ofRelated {r : Related} (hr : ∀ e ∈ r.entities, e.relations = []) :
    (ofRelated r).depth ≤ 4 := by
  match r, hr with
  | .one none, _ => decide
  | .one (some e), hr =>
    have he := depth_ofEntity_of_relations (hr e (by simp [Related.entities]))
    rw [ofRelated]
    omega
  | .many es, hr =>
    rw [ofRelated, depth, ofEntities_eq_map]
    refine Nat.succ_le_succ (depthItems_le (by omega) fun d hd => ?_)
    obtain ⟨e, he, rfl⟩ := List.mem_map.1 hd
    exact depth_ofEntity_of_relations (hr e he)

/-- The document of an entity whose relations are loaded one level deep. -/
theorem depth_ofEntity {e : Entity}
    (he : ∀ entry ∈ e.relations, ∀ r ∈ entry.2.entities, r.relations = []) :
    (ofEntity e).depth ≤ 5 := by
  rw [ofEntity_eq, depth]
  refine Nat.succ_le_succ (depthEntries_le (by omega) fun entry hentry => ?_)
  rcases List.mem_append.1 hentry with hfield | hrelation
  · rw [depth_of_mem_ofFields hfield]
    omega
  · rw [ofRelations_eq_map] at hrelation
    obtain ⟨r, hr, rfl⟩ := List.mem_map.1 hrelation
    exact depth_ofRelated (he r hr)

end Document

end ResourceEngine
