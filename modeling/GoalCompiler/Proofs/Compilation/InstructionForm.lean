import GoalCompiler.Compilation.Instruction
import GoalCompiler.Proofs.Json.Members

/-! The document of an instruction. The extensions of a step are written behind the fields of its instruction, and of
two members with one name the later counts. All fields of an instruction are fields of a step as well, which no
extension is named for, but for the sources of the values. So an instruction comes back from its document
exactly if the step has no extension of that one name, which is written in the place of the sources. -/
namespace GoalCompiler

open Decoder

theorem FailurePolicy.oneOf_name (p : FailurePolicy) : oneOf FailurePolicy.words (.str p.name) = .ok p := by
  cases p <;> rfl

theorem Source.oneOf_name (s : Source) : oneOf Source.words (.str s.name) = .ok s := by
  cases s <;> rfl

/-! ### Steps as they are read -/

namespace Step

variable {s : Step} {ms : Dict Json} {known : List String} {k : String}

theorem get?_unknown : Dict.get? (unknown known ms) k = if k ∈ known then none else Dict.get? ms k := by
  refine (Dict.get?_filter (p := fun k => !known.contains k)).trans ?_
  by_cases h : k ∈ known <;> simp [h]

theorem not_mem_of_unknown (h : k ∈ Dict.keys (unknown known ms)) : k ∉ known := by
  obtain ⟨e, he, rfl⟩ := List.mem_map.mp h
  simpa using (List.mem_filter.mp he).2

/-- The values of the step are as reading leaves them. -/
structure Read (s : Step) : Prop where
  params : dict any (.obj s.params) = .ok s.params
  maxRetries : ∀ n ∈ s.maxRetries, natural 32 (Json.ofNat n) = .ok n
  priority : ∀ n ∈ s.priority, integer Int32.minValue.toInt Int32.maxValue.toInt (.int n) = .ok n
  extensions : dict any (.obj s.extensions) = .ok s.extensions
  ordered : Dict.Ordered s.extensions
  unknown : ∀ k ∈ Dict.keys s.extensions, k ∉ fieldNames

theorem read_of_decode (hms : Dict.Ordered ms) (h : decode (.obj ms) = .ok s) : s.Read := by
  obtain ⟨id, -, h⟩ := Outcome.bind_eq_ok.mp h
  obtain ⟨tool, -, h⟩ := Outcome.bind_eq_ok.mp h
  obtain ⟨params, hparams, h⟩ := Outcome.bind_eq_ok.mp h
  obtain ⟨description, -, h⟩ := Outcome.bind_eq_ok.mp h
  obtain ⟨condition, -, h⟩ := Outcome.bind_eq_ok.mp h
  obtain ⟨optional, -, h⟩ := Outcome.bind_eq_ok.mp h
  obtain ⟨loop, -, h⟩ := Outcome.bind_eq_ok.mp h
  obtain ⟨dependsOn, -, h⟩ := Outcome.bind_eq_ok.mp h
  obtain ⟨timeout, -, h⟩ := Outcome.bind_eq_ok.mp h
  obtain ⟨maxRetries, hmaxRetries, h⟩ := Outcome.bind_eq_ok.mp h
  obtain ⟨retryDelay, -, h⟩ := Outcome.bind_eq_ok.mp h
  obtain ⟨onFailure, -, h⟩ := Outcome.bind_eq_ok.mp h
  obtain ⟨priority, hpriority, h⟩ := Outcome.bind_eq_ok.mp h
  obtain ⟨extensions, hextensions, h⟩ := Outcome.bind_eq_ok.mp h
  obtain rfl := Except.ok.inj h
  have hkeys := keys_of_dict hextensions
  refine ⟨?_, ?_, ?_, dict_any_of_dict_any hextensions, ?_, ?_⟩
  · rw [defaulted] at hparams
    split at hparams
    · exact dict_any_of_dict_any hparams
    · obtain rfl := Except.ok.inj hparams
      rfl
  · rintro n rfl
    obtain ⟨j, hj⟩ := exists_of_possible hmaxRetries
    exact natural_of_natural hj
  · rintro n rfl
    obtain ⟨j, hj⟩ := exists_of_possible hpriority
    exact integer_of_integer hj
  · exact Dict.ordered_iff_keys.mpr (hkeys ▸ Dict.ordered_iff_keys.mp (hms.filter _))
  · intro k hk
    exact not_mem_of_unknown (hkeys ▸ hk)

end Step

/-! ### Instructions as they are written -/

namespace Instruction

variable {i : Instruction} {ms : Dict Json} {k : String}

/-- The document of a map of sources. -/
def sourcesJson (sources : Dict Source) : Json := .obj (Dict.mapValues (fun s : Source => .str s.name) sources)

theorem dict_sourcesJson (sources : Dict Source) : dict (oneOf Source.words) (sourcesJson sources) = .ok sources :=
  dict_mapValues_iff.mpr fun e _ => e.2.oneOf_name

/-- The members say of every field what the instruction has there. -/
structure Tells (ms : Dict Json) (i : Instruction) : Prop where
  id : Dict.get? ms "id" = i.id.map .str
  tool : Dict.get? ms "tool" = some (.str i.tool)
  params : Dict.get? ms "params" = some (.obj i.params)
  description : Dict.get? ms "description" = i.description.map .str
  timeout : Dict.get? ms "timeout" = i.timeout.map .float
  maxRetries : Dict.get? ms "max_retries" = i.maxRetries.map Json.ofNat
  retryDelay : Dict.get? ms "retry_delay" = i.retryDelay.map .float
  onFailure : Dict.get? ms "on_failure" = some (.str i.onFailure.name)
  priority : Dict.get? ms "priority" = i.priority.map .int
  provenance : Dict.get? ms "provenance" = some (sourcesJson i.provenance)

/-- An instruction is read from members that tell it, where its values are as reading leaves them. -/
theorem decode_of_tells (h : Tells ms i) (hparams : dict any (.obj i.params) = .ok i.params)
    (hmaxRetries : ∀ n ∈ i.maxRetries, natural 32 (Json.ofNat n) = .ok n)
    (hpriority : ∀ n ∈ i.priority, integer Int32.minValue.toInt Int32.maxValue.toInt (.int n) = .ok n)
    (hextensions : dict any (.obj (Step.unknown fieldNames ms)) = .ok i.extensions) :
    decode (.obj ms) = .ok i := by
  have hid : possible ms "id" text = .ok i.id := possible_of_get? h.id nofun fun _ _ => rfl
  have htool : required ms "tool" text = .ok i.tool := by rw [required, h.tool]; rfl
  have hparams : required ms "params" (dict any) = .ok i.params := by rw [required, h.params]; exact hparams
  have hdescription : possible ms "description" text = .ok i.description :=
    possible_of_get? h.description nofun fun _ _ => rfl
  have htimeout : possible ms "timeout" real = .ok i.timeout := possible_of_get? h.timeout nofun fun _ _ => rfl
  have hmaxRetries : possible ms "max_retries" (natural 32) = .ok i.maxRetries :=
    possible_of_get? h.maxRetries nofun hmaxRetries
  have hretryDelay : possible ms "retry_delay" real = .ok i.retryDelay :=
    possible_of_get? h.retryDelay nofun fun _ _ => rfl
  have honFailure : defaulted ms "on_failure" (oneOf FailurePolicy.words) .stop = .ok i.onFailure := by
    rw [defaulted, h.onFailure]
    exact i.onFailure.oneOf_name
  have hpriority : possible ms "priority" (integer Int32.minValue.toInt Int32.maxValue.toInt) = .ok i.priority :=
    possible_of_get? h.priority nofun hpriority
  have hprovenance : defaulted ms "provenance" (dict (oneOf Source.words)) [] = .ok i.provenance := by
    rw [defaulted, h.provenance]
    exact dict_sourcesJson i.provenance
  simp only [decode, hid, htool, hparams, hdescription, htimeout, hmaxRetries, hretryDelay, honFailure, hpriority,
    hprovenance, hextensions]
  rfl

/-- The extensions that are read have no name of a field. -/
theorem not_mem_fieldNames_of_decode (h : decode (.obj ms) = .ok i) :
    ∀ k ∈ Dict.keys i.extensions, k ∉ fieldNames := by
  obtain ⟨id, -, h⟩ := Outcome.bind_eq_ok.mp h
  obtain ⟨tool, -, h⟩ := Outcome.bind_eq_ok.mp h
  obtain ⟨params, -, h⟩ := Outcome.bind_eq_ok.mp h
  obtain ⟨description, -, h⟩ := Outcome.bind_eq_ok.mp h
  obtain ⟨timeout, -, h⟩ := Outcome.bind_eq_ok.mp h
  obtain ⟨maxRetries, -, h⟩ := Outcome.bind_eq_ok.mp h
  obtain ⟨retryDelay, -, h⟩ := Outcome.bind_eq_ok.mp h
  obtain ⟨onFailure, -, h⟩ := Outcome.bind_eq_ok.mp h
  obtain ⟨priority, -, h⟩ := Outcome.bind_eq_ok.mp h
  obtain ⟨provenance, -, h⟩ := Outcome.bind_eq_ok.mp h
  obtain ⟨extensions, hextensions, h⟩ := Outcome.bind_eq_ok.mp h
  obtain rfl := Except.ok.inj h
  exact fun k hk => Step.not_mem_of_unknown (keys_of_dict hextensions ▸ hk)

/-- The members that are written before the extensions. -/
def ownFields (i : Instruction) : List (String × Json) := { i with extensions := [] }.fields

theorem fields_eq (i : Instruction) : i.fields = i.ownFields ++ i.extensions := by
  simp [ownFields, fields]

theorem tells_ownFields (i : Instruction) : Tells i.ownFields.reverse i := by
  constructor <;>
    simp [ownFields, fields, sourcesJson, Dict.get?_append, Dict.get?, Json.reverse_present, Json.get?_present]

theorem get?_ownFields_of_not_mem (h : k ∉ fieldNames) : Dict.get? i.ownFields.reverse k = none := by
  simp only [fieldNames, List.mem_cons, List.not_mem_nil, or_false, not_or] at h
  simp [ownFields, fields, Dict.get?_append, Dict.get?, Json.reverse_present, Json.get?_present, h]

/-- Extensions count before fields. -/
theorem get?_fields (hordered : Dict.Ordered i.extensions) :
    Dict.get? (Dict.ofList i.fields) k = (Dict.get? i.extensions k).or (Dict.get? i.ownFields.reverse k) := by
  rw [Dict.get?_ofList, fields_eq, List.reverse_append, Dict.get?_append, Dict.get?_reverse hordered]

/-- Where no extension has the name of a field, all fields are told. -/
theorem tells_fields (hordered : Dict.Ordered i.extensions) (h : ∀ k ∈ Dict.keys i.extensions, k ∉ fieldNames) :
    Tells (Dict.ofList i.fields) i := by
  have hget : ∀ k ∈ fieldNames, Dict.get? (Dict.ofList i.fields) k = Dict.get? i.ownFields.reverse k := by
    intro k hk
    rw [get?_fields hordered, Dict.get?_eq_none_iff.mpr fun hmem => h k hmem hk, Option.none_or]
  have hown := tells_ownFields i
  constructor <;> rw [hget _ (by decide)]
  exacts [hown.id, hown.tool, hown.params, hown.description, hown.timeout, hown.maxRetries, hown.retryDelay,
    hown.onFailure, hown.priority, hown.provenance]

/-- Where no extension has the name of a field, the extensions are what is no field. -/
theorem unknown_fields (hordered : Dict.Ordered i.extensions) (h : ∀ k ∈ Dict.keys i.extensions, k ∉ fieldNames) :
    Step.unknown fieldNames (Dict.ofList i.fields) = i.extensions := by
  refine Dict.ext_of_ordered ((Dict.ordered_ofList i.fields).filter _) hordered fun k => ?_
  rw [Step.get?_unknown, get?_fields hordered]
  split
  · rename_i hk
    exact (Dict.get?_eq_none_iff.mpr fun hmem => h k hmem hk).symm
  · rename_i hk
    rw [get?_ownFields_of_not_mem hk, Option.or_none]

variable {s : Step}

/-- But for the sources, the fields of an instruction are fields of a step. -/
theorem not_mem_fieldNames_of_read (hs : s.Read) (h : "provenance" ∉ Dict.keys s.extensions) :
    ∀ k ∈ Dict.keys s.extensions, k ∉ fieldNames := by
  have hfields : ∀ k ∈ fieldNames, k = "provenance" ∨ k ∈ Step.fieldNames := by decide
  intro k hk hmem
  rcases hfields k hmem with rfl | hmem
  · exact h hk
  · exact hs.unknown k hk hmem

/-- The document of the instruction that comes of a step, whatever the sources of its values are. The step was read
from an object, whose members stand in the order of their names. All extensions of the step are in the document. If
none of them has the name of the sources, the sources are in it, and the instruction is read back as it was; if
one has, it is there in their place, and something else is read. -/
theorem written_exactly (hms : Dict.Ordered ms) (hread : Step.decode (.obj ms) = .ok s) (sources : Dict Source) :
    ∃ members, (ofStep s sources).toJson = .obj members ∧
      (∀ k ∈ Dict.keys s.extensions, Dict.get? members k = Dict.get? s.extensions k) ∧
      ("provenance" ∉ Dict.keys s.extensions →
        Dict.get? members "provenance" = some (sourcesJson sources) ∧
          decode (ofStep s sources).toJson = .ok (ofStep s sources)) ∧
      ("provenance" ∈ Dict.keys s.extensions →
        Dict.get? members "provenance" = Dict.get? s.extensions "provenance" ∧
          decode (ofStep s sources).toJson ≠ .ok (ofStep s sources)) := by
  have hs := Step.read_of_decode hms hread
  have hordered : Dict.Ordered (ofStep s sources).extensions := hs.ordered
  have hcarried : ∀ k ∈ Dict.keys s.extensions,
      Dict.get? (Dict.ofList (ofStep s sources).fields) k = Dict.get? s.extensions k := by
    intro k hk
    obtain ⟨value, hvalue⟩ := Option.isSome_iff_exists.mp (Dict.contains_iff.mpr hk)
    rw [get?_fields hordered, show (ofStep s sources).extensions = s.extensions from rfl, hvalue, Option.some_or]
  refine ⟨_, rfl, hcarried, fun hnone => ?_, fun hsome => ⟨hcarried _ hsome, fun hback => ?_⟩⟩
  · have hunknown : ∀ k ∈ Dict.keys (ofStep s sources).extensions, k ∉ fieldNames :=
      not_mem_fieldNames_of_read hs hnone
    have htells := tells_fields hordered hunknown
    refine ⟨htells.provenance, decode_of_tells htells hs.params hs.maxRetries hs.priority ?_⟩
    rw [unknown_fields hordered hunknown]
    exact hs.extensions
  · exact not_mem_fieldNames_of_decode hback "provenance" hsome (by decide)

/-- A step of which the library does not know all members. -/
def dowelDocument : Dict Json :=
  [("comment", .str "by hand"), ("max_retries", .int 2), ("on_failure", .str "skip"),
   ("params", .obj [("depth", .str "$depth")]), ("pieces", .arr [.int 4, .null]), ("timeout", .int 30),
   ("tool", .str "drill")]

def dowel : Step where
  tool := "drill"
  params := [("depth", .str "$depth")]
  timeout := some 30.0
  maxRetries := some 2
  onFailure := .skip
  extensions := [("comment", .str "by hand"), ("pieces", .arr [.int 4, .null])]

theorem written_exactly_dowel :
    Dict.Ordered dowelDocument ∧ Step.decode (.obj dowelDocument) = .ok dowel ∧
      decode (ofStep dowel [("depth", .computed)]).toJson = .ok (ofStep dowel [("depth", .computed)]) := by
  have hordered : Dict.Ordered dowelDocument := by decide
  have hread : Step.decode (.obj dowelDocument) = .ok dowel := by decide +kernel
  obtain ⟨_, -, -, hexact, -⟩ := written_exactly hordered hread [("depth", .computed)]
  exact ⟨hordered, hread, (hexact (by decide)).2⟩

/-- A member of a step that has the name of the sources. -/
def markedDocument : Dict Json :=
  [("provenance", .obj [("width", .str "explicit")]), ("tool", .str "build_bench")]

def marked : Step where
  tool := "build_bench"
  extensions := [("provenance", .obj [("width", .str "explicit")])]

/-- The width is a default one, and is said to have been given. -/
theorem sources_overwritten :
    Step.decode (.obj markedDocument) = .ok marked ∧
      (ofStep marked [("width", .default)]).toJson =
        .obj [("on_failure", .str "stop"), ("params", .obj []),
          ("provenance", .obj [("width", .str "explicit")]), ("tool", .str "build_bench")] ∧
      .obj [("width", .str "explicit")] ≠ sourcesJson [("width", .default)] ∧
      decode (ofStep marked [("width", .default)]).toJson =
        .ok { tool := "build_bench", params := [], provenance := [("width", .explicit)] } := by
  decide +kernel

end Instruction

end GoalCompiler
