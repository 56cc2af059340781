import GoalCompiler.FileTree
import GoalCompiler.Proofs.Outcome
import Mathlib.Data.List.TakeWhile

/-! Paths and trees. A path with the ending of what is written beside a file never leads to the file or to a
directory that it is in, so that what happens there is not seen in the file. -/
namespace GoalCompiler

namespace Text

variable {c : Char} {cs ds : List Char}

theorem split_ne_nil (c : Char) (cs : List Char) : split c cs ≠ [] := by
  cases cs with
  | nil => nofun
  | cons x rest =>
    rw [split]
    split
    · nofun
    · split <;> nofun

theorem split_append : split c (cs ++ c :: ds) = split c cs ++ split c ds := by
  induction cs with
  | nil => simp [split]
  | cons x rest ih =>
    by_cases h : x = c
    · simp [split, h, ih]
    · obtain ⟨part, parts, hrest⟩ := List.exists_cons_of_ne_nil (split_ne_nil c rest)
      simp [split, h, ih, hrest]

theorem split_of_not_mem (h : c ∉ cs) : split c cs = [cs] := by
  induction cs with
  | nil => rfl
  | cons x rest ih =>
    rw [List.mem_cons, not_or] at h
    rw [split, if_neg (Ne.symm h.1), ih h.2]

/-- A text read from its end up to the last of a character. -/
theorem split_last (c : Char) (cs : List Char) :
    (c ∉ cs ∧ cs.reverse.dropWhile (· != c) = [] ∧ cs.reverse.takeWhile (· != c) = cs.reverse) ∨
    ∃ ds es, cs = ds ++ c :: es ∧ c ∉ es ∧ cs.reverse.dropWhile (· != c) = c :: ds.reverse ∧
      cs.reverse.takeWhile (· != c) = es.reverse := by
  have hpasses : ∀ es : List Char, c ∉ es → ∀ x ∈ es.reverse, (x != c) = true := fun es hes x hx =>
    bne_iff_ne.mpr fun heq => hes (heq ▸ List.mem_reverse.mp hx)
  by_cases h : c ∈ cs
  · right
    obtain ⟨es, ds, hreverse, hes⟩ := List.eq_append_cons_of_mem (List.mem_reverse.mpr h)
    have hcs : cs = ds.reverse ++ c :: es.reverse := by
      simpa using congrArg List.reverse hreverse
    have hall : ∀ x ∈ es, (x != c) = true := by simpa using hpasses es.reverse (by simpa using hes)
    refine ⟨ds.reverse, es.reverse, hcs, by simpa using hes, ?_, ?_⟩
    · rw [hreverse, List.dropWhile_append_of_pos hall]
      simp
    · rw [hreverse, List.takeWhile_append_of_pos hall]
      simp
  · left
    exact ⟨h, List.dropWhile_eq_nil_iff.mpr (hpasses cs h), List.takeWhile_eq_self_iff.mpr (hpasses cs h)⟩

end Text

namespace Path

variable {path directory x extension : String} {done : List String} {cs ds : List Char}

/-- One more name along a path. -/
def walk (done : List String) (part : String) : List String :=
  if part == "" || part == "." then done
  else if part == ".." then if done == [top] then done else done.drop 1
  else part :: done

theorem walk_cases (done : List String) (x : String) :
    walk done x = x :: done ∨ (walk done x).length ≤ done.length := by
  unfold walk
  split_ifs
  · exact .inr le_rfl
  · exact .inr le_rfl
  · exact .inr (by simp)
  · exact .inl rfl

/-- The names along the characters of a path, the last one first. -/
def walkAlong (cs : List Char) : List String :=
  ((Text.split '/' cs).map String.ofList).foldl walk (if cs.head? == some '/' then [top] else [])

theorem parts_eq : parts path = (walkAlong path.toList).reverse := rfl

theorem walkAlong_name (h : '/' ∉ cs) : walkAlong cs = walk [] (String.ofList cs) := by
  have hhead : (cs.head? == some '/') = false := by
    cases cs with
    | nil => rfl
    | cons c rest => simpa using fun heq : c = '/' => h (heq ▸ List.mem_cons_self)
  rw [walkAlong, Text.split_of_not_mem h, hhead]
  rfl

/-- A name after a directory; the root is the directory whose path is the separator alone. -/
theorem walkAlong_append (h : '/' ∉ cs) : walkAlong (ds ++ '/' :: cs) =
    walk (walkAlong (if ds = [] then ['/'] else ds)) (String.ofList cs) := by
  rw [walkAlong, Text.split_append, Text.split_of_not_mem h, List.map_append, List.foldl_append]
  cases ds with
  | nil => rfl
  | cons d rest => rfl

/-- The characters of a path are a name, or a name in a directory. -/
theorem parent_name (path : String) : ('/' ∉ path.toList ∧ parent path = "" ∧ name path = path) ∨
    ∃ ds cs, path.toList = ds ++ '/' :: cs ∧ '/' ∉ cs ∧ (parent path).toList = (if ds = [] then ['/'] else ds) ∧
      name path = String.ofList cs := by
  rcases Text.split_last '/' path.toList with ⟨h, hdrop, htake⟩ | ⟨ds, cs, hpath, hcs, hdrop, htake⟩
  · left
    refine ⟨h, ?_, ?_⟩
    · rw [parent, hdrop]
    · rw [name, htake, List.reverse_reverse, String.ofList_toList]
  · right
    refine ⟨ds, cs, hpath, hcs, ?_, ?_⟩
    · rw [parent, hdrop]
      rcases List.eq_nil_or_concat ds with rfl | ⟨ds, d, rfl⟩
      · rfl
      · simp
    · rw [name, htake, List.reverse_reverse]

/-- A path goes on from its directory by its name. -/
theorem parts_eq_walk (path : String) : parts path = (walk (parts (parent path)).reverse (name path)).reverse := by
  rw [parts_eq, parts_eq, List.reverse_reverse]
  rcases parent_name path with ⟨hpath, hparent, hname⟩ | ⟨ds, cs, hpath, hcs, hparent, hname⟩
  · rw [walkAlong_name hpath, hparent, hname, String.ofList_toList]
    rfl
  · rw [hpath, walkAlong_append hcs, hparent, hname]

/-- The name of a node, which leads neither nowhere nor back. -/
structure Plain (x : String) : Prop where
  whole : '/' ∉ x.toList
  ne_empty : x ≠ ""
  ne_here : x ≠ "."
  ne_back : x ≠ ".."

theorem Plain.walk (h : Plain x) : walk done x = x :: done := by
  simp [Path.walk, h.ne_empty, h.ne_here, h.ne_back]

theorem parts_join (h : Plain x) : parts (join directory x) = parts directory ++ [x] := by
  rw [parts_eq, parts_eq, ← List.reverse_cons]
  congr 1
  generalize hds : directory.toList = ds
  have hempty : directory.isEmpty = true ↔ ds = [] := by
    rw [String.isEmpty_iff, ← String.toList_eq_nil_iff, hds]
  rw [join]
  split
  · next hend =>
    rw [String.toList_append, hds]
    rcases List.eq_nil_or_concat ds with rfl | ⟨ds, c, rfl⟩
    · rw [List.nil_append, walkAlong_name h.whole, String.ofList_toList, h.walk]
      rfl
    · obtain rfl : c = '/' := by simpa [hempty, hds] using hend
      rw [List.concat_eq_append, List.append_assoc, List.singleton_append, walkAlong_append h.whole,
        walkAlong_append List.not_mem_nil, String.ofList_toList, h.walk]
      rfl
  · next hend =>
    have hne : ds ≠ [] := fun heq => hend (by simp [hempty.mpr heq])
    rw [String.toList_append, String.toList_append, hds, List.append_assoc]
    change walkAlong (ds ++ '/' :: x.toList) = _
    rw [walkAlong_append h.whole, if_neg hne, String.ofList_toList, h.walk]

/-- A name is split at its last dot, if at all. -/
theorem splitName_cases : (splitName x).1 = x ∨ ∃ e : String, '.' ∉ e.toList ∧ x = (splitName x).1 ++ "." ++ e := by
  rcases Text.split_last '.' x.toList with ⟨-, hdrop, -⟩ | ⟨ds, cs, hx, hcs, hdrop, -⟩
  · exact .inl (by simp only [splitName, hdrop])
  · rcases List.eq_nil_or_concat ds with rfl | ⟨ds, d, rfl⟩
    · exact .inl (by simp only [splitName, hdrop, List.reverse_nil])
    · have hname : (splitName x).1 = String.ofList (ds ++ [d]) := by simp [splitName, hdrop]
      refine .inr ⟨String.ofList cs, by simpa using hcs, String.toList_inj.mp ?_⟩
      rw [hname, hx]
      simp

/-- With an ending that has a dot in it a name is another: its own last ending has none. -/
theorem splitName_ne (hextension : '.' ∈ extension.toList) : (splitName x).1 ++ "." ++ extension ≠ x := by
  intro heq
  rcases splitName_cases (x := x) with h | ⟨e, he, h⟩
  · rw [h] at heq
    have hlength := congrArg (·.toList.length) heq
    simp at hlength
  · have hsame : (splitName x).1 ++ "." ++ extension = (splitName x).1 ++ "." ++ e := heq.trans h
    have hend := congrArg String.toList hsame
    rw [String.toList_append, String.toList_append (t := e)] at hend
    exact he (List.append_cancel_left hend ▸ hextension)

theorem slash_not_mem_name (path : String) : '/' ∉ (name path).toList := by
  rcases parent_name path with ⟨hpath, -, hname⟩ | ⟨-, cs, -, hcs, -, hname⟩
  · rwa [hname]
  · rwa [hname, String.toList_ofList]

/-- What ends in `json.tmp` is the name of a node. -/
theorem plain_beside : Plain ((splitName (name path)).1 ++ "." ++ "json.tmp") where
  whole := by
    have hstem : '/' ∉ (splitName (name path)).1.toList := by
      rcases splitName_cases (x := name path) with h | ⟨e, -, h⟩
      · rw [h]
        exact slash_not_mem_name path
      · intro hmem
        refine slash_not_mem_name path ?_
        rw [h, String.toList_append, String.toList_append]
        exact List.mem_append_left _ (List.mem_append_left _ hmem)
    simpa using hstem
  ne_empty h := by simpa using congrArg (·.toList.length) h
  ne_here h := by
    have hlength := congrArg (·.toList.length) h
    simp at hlength
  ne_back h := by
    have hlength := congrArg (·.toList.length) h
    simp at hlength

/-- What is written beside a file is not on the way to it. -/
theorem beside_apart : ¬ parts (withExtension path "json.tmp") <+: parts path := by
  rw [withExtension, parts_join plain_beside, parts_eq_walk path]
  generalize parts (parent path) = ps
  intro hprefix
  have hlength : ps.length + 1 ≤ (walk ps.reverse (name path)).reverse.length := by
    simpa only [List.length_append, List.length_singleton] using hprefix.length_le
  rcases walk_cases ps.reverse (name path) with h | h
  · rw [h, List.reverse_cons, List.reverse_reverse] at hprefix
    have hname := hprefix.eq_of_length (by simp)
    exact splitName_ne (by decide) (List.singleton_inj.mp (List.append_cancel_left hname))
  · rw [List.length_reverse] at hlength h
    omega

end Path

namespace FileTree

variable {t t' : FileTree} {path source directory content c : String} {ps qs : List String} {n : FileNode}

/-- The text in a file, if there is one that can be read. -/
def content? (t : FileTree) (path : String) : Option String := (t.read path).toOption

theorem lookup_filter {p : List String → Bool} (h : p qs) :
    List.lookup qs (t.filter fun e => p e.1) = List.lookup qs t := by
  induction t with
  | nil => rfl
  | cons e rest ih =>
    by_cases he : p e.1
    · rw [List.filter_cons, if_pos he, List.lookup_cons, List.lookup_cons, ih]
    · have hne : (qs == e.1) = false := beq_false_of_ne fun heq => he (heq ▸ h)
      rw [List.filter_cons, if_neg he, ih, List.lookup_cons, hne]

theorem node?_put_of_ne (h : qs ≠ ps) : (t.put ps n).node? qs = t.node? qs := by
  have hlookup := lookup_filter (t := t) (p := (· != ps)) (bne_iff_ne.mpr h)
  rw [node?, node?, put, List.lookup_cons, beq_false_of_ne h]
  simp only [hlookup]

theorem node?_put_self (h : t.node? ps ≠ some .directory) : (t.put ps n).node? ps = some n := by
  unfold node? at h ⊢
  split_ifs at h ⊢
  · exact absurd rfl h
  · exact List.lookup_cons_self

theorem node?_erase (h : ¬ ps <+: qs) : (t.erase ps).node? qs = t.node? qs := by
  have hkeep : (!ps.isPrefixOf qs) = true := by simpa [← List.isPrefixOf_iff_prefix] using h
  have hlookup := lookup_filter (t := t) (p := fun rs => !ps.isPrefixOf rs) hkeep
  rw [node?, node?, erase, hlookup]

/-- A file is read where nothing but directories stands before it. -/
theorem content?_eq_some : t.content? path = some c ↔ path ≠ "" ∧ t.blocked (Path.parts path) = false ∧
    t.node? (Path.parts path) = some (.file c) := by
  simp only [content?, read, find, String.isEmpty_iff]
  split_ifs with hpath hblocked
  · simp [hpath, Except.toOption]
  · simp [hpath, hblocked, Except.toOption]
  · simp only [hblocked]
    cases t.node? (Path.parts path) with
    | none => simp [Except.toOption]
    | some n => cases n <;> simp [hpath, Except.toOption]

theorem blocked_eq_false : t.blocked ps = false ↔
    ∀ k < ps.length, t.node? (ps.take k) = none ∨ t.node? (ps.take k) = some .directory := by
  simp only [blocked, List.any_eq_false, List.mem_range]
  refine forall₂_congr fun k _ => ?_
  cases t.node? (ps.take k) with
  | none => simp
  | some n => cases n <;> simp

/-- A change elsewhere is not seen on the way. -/
theorem content?_congr (h : ∀ qs, qs <+: Path.parts path → t'.node? qs = t.node? qs) :
    t'.content? path = t.content? path := by
  refine Option.ext fun c => ?_
  rw [content?_eq_some, content?_eq_some, blocked_eq_false, blocked_eq_false, h _ List.prefix_rfl]
  simp only [h _ (List.take_prefix _ _)]

theorem content?_put_apart (h : ¬ ps <+: Path.parts path) :
    (t.put ps n).content? path = t.content? path :=
  content?_congr fun _ hqs => node?_put_of_ne fun heq => h (heq ▸ hqs)

/-- A new directory hides nothing. -/
theorem content?_put_directory (h : t.node? ps = none) :
    (t.put ps .directory).content? path = t.content? path := by
  have hnew : (t.put ps .directory).node? ps = some .directory := node?_put_self (by simp [h])
  refine Option.ext fun c => ?_
  rw [content?_eq_some, content?_eq_some, blocked_eq_false, blocked_eq_false]
  have hway : ∀ qs, ((t.put ps .directory).node? qs = none ∨ (t.put ps .directory).node? qs = some .directory) ↔
      (t.node? qs = none ∨ t.node? qs = some .directory) := by
    intro qs
    by_cases hqs : qs = ps
    · simp [hqs, hnew, h]
    · rw [node?_put_of_ne hqs]
  have hend : (t.put ps .directory).node? (Path.parts path) = some (.file c) ↔
      t.node? (Path.parts path) = some (.file c) := by
    by_cases hqs : Path.parts path = ps
    · simp [hqs, hnew, h]
    · rw [node?_put_of_ne hqs]
  simp only [hway, hend]

theorem content?_createDirectories (h : t.createDirectories directory = .ok t') :
    t'.content? path = t.content? path := by
  have hfold : ∀ (ks : List Nat) (u : FileTree), (ks.foldl (fun t k =>
      let ps := (Path.parts directory).take (k + 1)
      if (t.node? ps).isSome then t else t.put ps .directory) u).content? path = u.content? path := by
    intro ks
    induction ks with
    | nil => exact fun _ => rfl
    | cons k rest ih =>
      intro u
      rw [List.foldl_cons, ih]
      dsimp only
      split
      · rfl
      · next hnone => exact content?_put_directory (by simpa using hnone)
  unfold createDirectories at h
  dsimp only at h
  split at h
  · exact Except.ok.inj h ▸ rfl
  · cases h
  · exact Except.ok.inj h ▸ hfold _ _
  · cases h

/-- What is written is a file, and nothing stands in its way. -/
theorem write_eq_ok (h : t.write path c = .ok t') : path ≠ "" ∧ t.blocked (Path.parts path) = false ∧
    t.node? (Path.parts path) ≠ some .directory ∧ t' = t.put (Path.parts path) (.file c) := by
  unfold write at h
  dsimp only at h
  split at h
  · cases h
  · cases h
  · next hdirectory hblocked =>
    split_ifs at h with hpath
    rw [String.isEmpty_iff] at hpath
    split at h
    · have hclear : t.blocked (Path.parts path) = false := by
        by_contra hb
        exact hblocked (by simp [find, hpath, hb])
      refine ⟨hpath, hclear, fun hnode => hdirectory ?_, (Except.ok.inj h).symm⟩
      simp [find, hpath, hclear, hnode]
    · cases h

theorem content?_write_apart (h : t.write source c = .ok t')
    (hsource : ¬ Path.parts source <+: Path.parts path) : t'.content? path = t.content? path := by
  obtain ⟨-, -, -, rfl⟩ := write_eq_ok h
  exact content?_put_apart hsource

theorem content?_write (h : t.write path c = .ok t') : t'.content? path = some c := by
  obtain ⟨hpath, hclear, hnode, rfl⟩ := write_eq_ok h
  rw [blocked_eq_false] at hclear
  refine content?_eq_some.mpr ⟨hpath, blocked_eq_false.mpr fun k hk => ?_, node?_put_self hnode⟩
  have hne : (Path.parts path).take k ≠ Path.parts path := fun heq => by
    have hlength := congrArg List.length heq
    rw [List.length_take] at hlength
    omega
  rw [node?_put_of_ne hne]
  exact hclear k hk

theorem content?_erase_apart (h : ¬ ps <+: Path.parts path) : (t.erase ps).content? path = t.content? path :=
  content?_congr fun _ hqs => node?_erase fun hps => h (hps.trans hqs)

theorem content?_rename (h : t.rename source path = .ok t') (hsource : ¬ Path.parts source <+: Path.parts path) :
    t'.content? path = t.content? source := by
  obtain ⟨c, hread, h⟩ := Outcome.bind_eq_ok.mp h
  obtain ⟨moved, hwrite, hmoved⟩ := Outcome.bind_eq_ok.mp h
  obtain rfl := Except.ok.inj hmoved
  rw [content?_erase_apart hsource, content?_write hwrite, content?, hread]
  rfl

end FileTree

end GoalCompiler
