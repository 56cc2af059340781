import GoalCompiler.Memory.Store

/-! A store that holds its mappings by their identifiers, as long as the program runs. What it holds has no order
of its own: `arrange` says in which order its mappings are met when all of them are gone through. -/
namespace GoalCompiler

/-- Changes the mappings with an identifier. -/
def Records.alter (rs : Records) (id : Identifier) (f : Mapping → Mapping) : Records :=
  rs.map fun m => if m.id = id then f m else m

/-- What a change leaves as it is stays in every mapping. -/
theorem Records.map_alter {α : Type} {rs : Records} {id : Identifier} {f : Mapping → Mapping} {g : Mapping → α}
    (hf : ∀ m, g (f m) = g m) : (rs.alter id f).map g = rs.map g := by
  rw [alter, List.map_map]
  refine List.map_congr_left fun m _ => ?_
  by_cases h : m.id = id <;> simp [h, hf]

structure HeldStore where
  entries : Records
  distinct : (entries.map Mapping.id).Nodup
deriving DecidableEq, Repr

namespace HeldStore

def empty : HeldStore := ⟨[], List.nodup_nil⟩

/-- Holds a mapping, in place of one with its identifier. -/
def insert (s : HeldStore) (m : Mapping) : HeldStore where
  entries := m :: s.entries.filter (·.id != m.id)
  distinct := by
    rw [List.map_cons, List.nodup_cons]
    exact ⟨by simp, s.distinct.sublist (List.filter_sublist.map _)⟩

/-- Changes the mapping with an identifier, which stays. -/
def change (s : HeldStore) (id : Identifier) (f : Mapping → Mapping) (hf : ∀ m, (f m).id = m.id) : HeldStore where
  entries := s.entries.alter id f
  distinct := by
    rw [Records.map_alter hf]
    exact s.distinct

def memory (arrange : Records → Records) : Memory HeldStore where
  search s q := .ok (q.run (arrange s.entries))
  upsert s m :=
    match (arrange s.entries).find? (·.sameKey m) with
    | some r => (.ok (r.absorb m), s.change r.id (·.absorb m) fun _ => rfl)
    | none => (.ok m, s.insert m)
  recordUsage s id now :=
    match Records.get? s.entries id with
    | some m => (.ok (m.use now).usage, s.change id (·.use now) fun _ => rfl)
    | none => (.error (Records.unknown id), s)

end HeldStore

end GoalCompiler
