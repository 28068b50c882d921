import Cadence.Proofs.Scenario.Shape
import Cadence.Scenario.Decode
/-!
# The grammar of instructions

Which values are read as a call, an await or an instruction, and as which one, said without the
order in which their entries are read.
-/

namespace Cadence

namespace Scenario

open Struct (Filled)

namespace Call

structure SpelledBy (entries : List (String × Json)) (call : Call) : Prop where
  known : ∀ entry ∈ entries, entry.1 ∈ struct.fields
  service : ("service", .str call.service) ∈ entries
  method : ("method", .str call.method) ∈ entries
  args : Filled entries "args" (fun value args => value = .arr args) [] call.args
  bind : Filled entries "bind" (fun value bind => value = bind.elim .null .str) none call.bind

def Spelled (value : Json) (call : Call) : Prop :=
  ∃ entries, struct.Gives value entries ∧ SpelledBy entries call

theorem enter_eq_ok {before after : Draft} {key : String} {value : Json} :
    enter before key value = .ok after ↔
      key = "service" ∧ (∃ name, value = .str name ∧
        after = { before with service := some name }) ∨
      key = "method" ∧ (∃ name, value = .str name ∧
        after = { before with method := some name }) ∨
      key = "args" ∧ (∃ args, value = .arr args ∧ after = { before with args }) ∨
      key = "bind" ∧ (∃ bind : Option String, value = bind.elim .null .str ∧
        after = { before with bind }) := by
  unfold enter
  split
  all_goals simp_all [map_eq_ok, throw_ne_ok, Reader.text_eq_ok, Reader.list_any_eq_ok,
    Reader.optional_text_eq_ok]

theorem drafted {entries : List (String × Json)} {draft : Draft}
    (distinct : (entries.map Prod.fst).Nodup)
    (folded : entries.foldlM (fun draft entry => enter draft entry.1 entry.2) {} = .ok draft) :
    (∀ entry ∈ entries, entry.1 ∈ struct.fields) ∧
      Filled entries "service" (fun value service => ∃ name, value = .str name ∧
        service = some name) none draft.service ∧
      Filled entries "method" (fun value method => ∃ name, value = .str name ∧
        method = some name) none draft.method ∧
      Filled entries "args" (fun value args => value = .arr args) [] draft.args ∧
      Filled entries "bind" (fun value bind => value = bind.elim .null .str) none draft.bind := by
  refine ⟨fun entry member => ?_, ?_, ?_, ?_, ?_⟩
  · obtain ⟨before, after, entered⟩ := Struct.entered_of_fold folded entry member
    grind [enter_eq_ok, struct]
  · exact Struct.filled_of_fold Draft.service (by grind [enter_eq_ok]) (by grind [enter_eq_ok])
      distinct folded
  · exact Struct.filled_of_fold Draft.method (by grind [enter_eq_ok]) (by grind [enter_eq_ok])
      distinct folded
  · exact Struct.filled_of_fold Draft.args (by grind [enter_eq_ok]) (by grind [enter_eq_ok])
      distinct folded
  · exact Struct.filled_of_fold Draft.bind (by grind [enter_eq_ok]) (by grind [enter_eq_ok])
      distinct folded

theorem SpelledBy.fits {entries : List (String × Json)} {call : Call}
    (spelled : SpelledBy entries call) (distinct : (entries.map Prod.fst).Nodup) :
    ∀ entry ∈ entries, ∀ before, ∃ after, enter before entry.1 entry.2 = .ok after := by
  rintro ⟨key, value⟩ member before
  have known := spelled.known _ member
  simp only [struct, List.mem_cons, List.not_mem_nil, or_false] at known
  simp only [enter_eq_ok]
  obtain rfl | rfl | rfl | rfl := known
  · have text := Struct.value_unique distinct member spelled.service
    exact ⟨_, .inl ⟨rfl, _, text, rfl⟩⟩
  · have text := Struct.value_unique distinct member spelled.method
    exact ⟨_, .inr (.inl ⟨rfl, _, text, rfl⟩)⟩
  · have items := spelled.args.reads distinct member
    exact ⟨_, .inr (.inr (.inl ⟨rfl, _, items, rfl⟩))⟩
  · have name := spelled.bind.reads distinct member
    exact ⟨_, .inr (.inr (.inr ⟨rfl, _, name, rfl⟩))⟩

theorem decode_eq_ok {value : Json} {call : Call} (unique : value.UniqueKeys) :
    decode value = .ok call ↔ Spelled value call := by
  unfold decode
  simp only [bind_eq_ok, Struct.read_eq_ok, Struct.require_eq_ok]
  constructor
  · rintro ⟨draft, ⟨entries, gives, folded⟩, service, isService, method, isMethod, ⟨⟩⟩
    obtain ⟨known, services, methods, args, bind⟩ :=
      drafted (gives.nodup unique (by decide)) folded
    rw [isService, Struct.filled_some] at services
    rw [isMethod, Struct.filled_some] at methods
    obtain ⟨_, inService, rfl⟩ := services
    obtain ⟨_, inMethod, rfl⟩ := methods
    exact ⟨entries, gives, known, inService, inMethod, args, bind⟩
  · rintro ⟨entries, gives, spelled⟩
    have distinct := gives.nodup unique (by decide)
    obtain ⟨draft, folded⟩ := Struct.exists_fold (spelled.fits distinct) {}
    obtain ⟨-, services, methods, args, bind⟩ := drafted distinct folded
    have service : draft.service = some call.service :=
      services.functional distinct (by grind) (Struct.filled_some.2 ⟨_, spelled.service, rfl⟩)
    have method : draft.method = some call.method :=
      methods.functional distinct (by grind) (Struct.filled_some.2 ⟨_, spelled.method, rfl⟩)
    have sameArgs : draft.args = call.args := args.functional distinct (by grind) spelled.args
    have sameBind : draft.bind = call.bind :=
      bind.functional distinct (by rintro value (_ | _) (_ | _) <;> simp_all) spelled.bind
    exact ⟨draft, ⟨entries, gives, folded⟩, call.service, service, call.method, method,
      by rw [sameArgs, sameBind]; rfl⟩

end Call

namespace Await

def strategyName : Strategy → String
  | .single => "single"
  | .all => "wait_for_all"
  | .race => "race"

/-- A strategy is spelled by its name, alone or as the only key of a map to null. -/
def SpelledStrategy (value : Json) (strategy : Strategy) : Prop :=
  value = .str (strategyName strategy) ∨ value = .obj [(strategyName strategy, .null)]

structure SpelledBy (entries : List (String × Json)) (await : Await) : Prop where
  known : ∀ entry ∈ entries, entry.1 ∈ struct.fields
  strategy : Filled entries "strategy" SpelledStrategy .single await.strategy
  calls : ∃ items, ("calls", .arr items) ∈ entries ∧ List.Forall₂ Call.Spelled items await.calls
  bind : Filled entries "bind" (fun value bind => value = bind.elim .null .str) none await.bind

def Spelled (value : Json) (await : Await) : Prop :=
  ∃ entries, struct.Gives value entries ∧ SpelledBy entries await

theorem readStrategy_eq_ok {value : Json} {strategy : Strategy} :
    readStrategy value = .ok strategy ↔ SpelledStrategy value strategy := by
  have named {name : String} : List.lookup name
      [("single", Strategy.single), ("wait_for_all", .all), ("race", .race)] = some strategy ↔
        name = strategyName strategy := by
    cases strategy <;> simp only [List.lookup_cons, List.lookup_nil, strategyName] <;> grind
  unfold readStrategy SpelledStrategy
  simp only [Reader.variant_eq_ok, named, exists_eq_left]

theorem calls_eq_ok {value : Json} {calls : List Call} (unique : value.UniqueKeys) :
    Reader.list Call.decode value = .ok calls ↔
      ∃ items, value = .arr items ∧ List.Forall₂ Call.Spelled items calls := by
  rw [Reader.list_eq_ok]
  constructor
  · rintro ⟨items, rfl, each⟩
    refine ⟨items, rfl, (Reader.forall₂_congr_mem fun item member call => ?_).1 each⟩
    exact Call.decode_eq_ok (unique.part (.item member .self))
  · rintro ⟨items, rfl, each⟩
    refine ⟨items, rfl, (Reader.forall₂_congr_mem fun item member call => ?_).2 each⟩
    exact Call.decode_eq_ok (unique.part (.item member .self))

theorem enter_eq_ok {before after : Draft} {key : String} {value : Json} :
    enter before key value = .ok after ↔
      key = "strategy" ∧ (∃ strategy, SpelledStrategy value strategy ∧
        after = { before with strategy }) ∨
      key = "calls" ∧ (∃ calls, Reader.list Call.decode value = .ok calls ∧
        after = { before with calls := some calls }) ∨
      key = "bind" ∧ (∃ bind : Option String, value = bind.elim .null .str ∧
        after = { before with bind }) := by
  unfold enter
  split
  all_goals simp_all [map_eq_ok, throw_ne_ok, readStrategy_eq_ok, Reader.optional_text_eq_ok]

theorem drafted {entries : List (String × Json)} {draft : Draft}
    (distinct : (entries.map Prod.fst).Nodup)
    (folded : entries.foldlM (fun draft entry => enter draft entry.1 entry.2) {} = .ok draft) :
    (∀ entry ∈ entries, entry.1 ∈ struct.fields) ∧
      Filled entries "strategy" SpelledStrategy .single draft.strategy ∧
      Filled entries "calls" (fun value calls => ∃ made,
        Reader.list Call.decode value = .ok made ∧ calls = some made) none draft.calls ∧
      Filled entries "bind" (fun value bind => value = bind.elim .null .str) none draft.bind := by
  refine ⟨fun entry member => ?_, ?_, ?_, ?_⟩
  · obtain ⟨before, after, entered⟩ := Struct.entered_of_fold folded entry member
    grind [enter_eq_ok, struct]
  · exact Struct.filled_of_fold Draft.strategy (by grind [enter_eq_ok]) (by grind [enter_eq_ok])
      distinct folded
  · exact Struct.filled_of_fold Draft.calls (by grind [enter_eq_ok]) (by grind [enter_eq_ok])
      distinct folded
  · exact Struct.filled_of_fold Draft.bind (by grind [enter_eq_ok]) (by grind [enter_eq_ok])
      distinct folded

theorem SpelledBy.fits {entries : List (String × Json)} {await : Await} {made : Json}
    (spelled : SpelledBy entries await) (distinct : (entries.map Prod.fst).Nodup)
    (inCalls : ("calls", made) ∈ entries) (read : Reader.list Call.decode made = .ok await.calls) :
    ∀ entry ∈ entries, ∀ before, ∃ after, enter before entry.1 entry.2 = .ok after := by
  rintro ⟨key, value⟩ member before
  have known := spelled.known _ member
  simp only [struct, List.mem_cons, List.not_mem_nil, or_false] at known
  simp only [enter_eq_ok]
  obtain rfl | rfl | rfl := known
  · have named := spelled.strategy.reads distinct member
    exact ⟨_, .inl ⟨rfl, _, named, rfl⟩⟩
  · obtain rfl := Struct.value_unique distinct member inCalls
    exact ⟨_, .inr (.inl ⟨rfl, _, read, rfl⟩)⟩
  · have name := spelled.bind.reads distinct member
    exact ⟨_, .inr (.inr ⟨rfl, _, name, rfl⟩)⟩

theorem decode_eq_ok {value : Json} {await : Await} (unique : value.UniqueKeys) :
    decode value = .ok await ↔ Spelled value await := by
  unfold decode
  simp only [bind_eq_ok, Struct.read_eq_ok, Struct.require_eq_ok]
  constructor
  · rintro ⟨draft, ⟨entries, gives, folded⟩, calls, isCalls, ⟨⟩⟩
    obtain ⟨known, strategy, made, bind⟩ := drafted (gives.nodup unique (by decide)) folded
    rw [isCalls, Struct.filled_some] at made
    obtain ⟨list, inCalls, read⟩ := made
    obtain ⟨items, rfl, each⟩ := (calls_eq_ok (unique.part (gives.isPart inCalls))).1 read
    exact ⟨entries, gives, known, strategy, ⟨items, inCalls, each⟩, bind⟩
  · rintro ⟨entries, gives, spelled⟩
    have distinct := gives.nodup unique (by decide)
    obtain ⟨items, inCalls, each⟩ := spelled.calls
    have read : Reader.list Call.decode (.arr items) = .ok await.calls :=
      (calls_eq_ok (unique.part (gives.isPart inCalls))).2 ⟨items, rfl, each⟩
    have fits := spelled.fits distinct inCalls read
    obtain ⟨draft, folded⟩ := Struct.exists_fold fits {}
    obtain ⟨-, strategy, made, bind⟩ := drafted distinct folded
    have calls : draft.calls = some await.calls :=
      made.functional distinct (by grind) (Struct.filled_some.2 ⟨_, inCalls, read⟩)
    have sameStrategy : draft.strategy = await.strategy := by
      apply strategy.functional distinct _ spelled.strategy
      intro value strategy strategy' first second
      exact Except.ok.inj ((readStrategy_eq_ok.2 first).symm.trans (readStrategy_eq_ok.2 second))
    have sameBind : draft.bind = await.bind :=
      bind.functional distinct (by rintro value (_ | _) (_ | _) <;> simp_all) spelled.bind
    exact ⟨draft, ⟨entries, gives, folded⟩, await.calls, calls,
      by rw [sameStrategy, sameBind]; rfl⟩

end Await

namespace Instruction

inductive Spells : String → Json → Instruction → Prop where
  | log (value : Json) : Spells "log" value (.log value)
  | sleep {ticks : Nat} (fits : ticks < UInt32.size) : Spells "sleep" (.int ticks) (.sleep ticks)
  | call {value : Json} {made : Call} (spelled : Call.Spelled value made) :
      Spells "call" value (.call made)
  | await {value : Json} {awaited : Await} (spelled : Await.Spelled value awaited) :
      Spells "await" value (.await awaited)
  | ret (value : Json) : Spells "return" value (.ret value)

/-- A null under a key whose value is optional, which is taken for a missing key. -/
def IsAbsent (entry : String × Json) : Prop :=
  entry.1 ∈ ["sleep", "call", "await"] ∧ entry.2 = .null

/-- One entry spells the instruction, and all others are absent. -/
def Spelled (value : Json) (instruction : Instruction) : Prop :=
  ∃ entries, struct.Gives value entries ∧ ∃ entry ∈ entries,
    Spells entry.1 entry.2 instruction ∧ ∀ other ∈ entries, other ≠ entry → IsAbsent other

theorem enter_eq_ok {before after : Draft} {key : String} {value : Json} :
    enter before key value = .ok after ↔
      key = "log" ∧ after = { before with log := some value } ∨
      key = "sleep" ∧ (∃ sleep, Reader.optional natural32 value = .ok sleep ∧
        after = { before with sleep }) ∨
      key = "call" ∧ (∃ call, Reader.optional Call.decode value = .ok call ∧
        after = { before with call }) ∨
      key = "await" ∧ (∃ await, Reader.optional Await.decode value = .ok await ∧
        after = { before with await }) ∨
      key = "return" ∧ after = { before with ret := some value } := by
  unfold enter
  split
  all_goals simp_all [map_eq_ok, pure_eq_ok, throw_ne_ok]

def Draft.get (draft : Draft) (key : String) : Option Instruction :=
  match key with
  | "log" => draft.log.map .log
  | "sleep" => draft.sleep.map .sleep
  | "call" => draft.call.map .call
  | "await" => draft.await.map .await
  | "return" => draft.ret.map .ret
  | _ => none

def said (key : String) (value : Json) : Except ShapeError (Option Instruction) :=
  match key with
  | "log" => .ok (some (.log value))
  | "sleep" => Option.map .sleep <$> Reader.optional natural32 value
  | "call" => Option.map .call <$> Reader.optional Call.decode value
  | "await" => Option.map .await <$> Reader.optional Await.decode value
  | "return" => .ok (some (.ret value))
  | _ => .error (.unknownField key struct.fields)

theorem said_of_enter {before after : Draft} {key : String} {value : Json}
    (entered : enter before key value = .ok after) :
    said key value = .ok (after.get key) ∧
      ∀ other, other ≠ key → after.get other = before.get other := by
  obtain ⟨rfl, rfl⟩ | ⟨rfl, sleep, read, rfl⟩ | ⟨rfl, call, read, rfl⟩ | ⟨rfl, await, read, rfl⟩ |
    ⟨rfl, rfl⟩ := enter_eq_ok.1 entered
  all_goals
    constructor
    · simp_all [said, Draft.get]
    · intro other differs
      unfold Draft.get
      split <;> simp_all

theorem exists_enter {before : Draft} {key : String} {value : Json}
    {instruction : Option Instruction} (accepted : said key value = .ok instruction) :
    ∃ after, enter before key value = .ok after := by
  simp only [enter_eq_ok]
  unfold said at accepted
  split at accepted
  case h_1 => exact ⟨_, .inl ⟨rfl, rfl⟩⟩
  case h_2 =>
    obtain ⟨sleep, read, -⟩ := map_eq_ok.1 accepted
    exact ⟨_, .inr (.inl ⟨rfl, sleep, read, rfl⟩)⟩
  case h_3 =>
    obtain ⟨call, read, -⟩ := map_eq_ok.1 accepted
    exact ⟨_, .inr (.inr (.inl ⟨rfl, call, read, rfl⟩))⟩
  case h_4 =>
    obtain ⟨await, read, -⟩ := map_eq_ok.1 accepted
    exact ⟨_, .inr (.inr (.inr (.inl ⟨rfl, await, read, rfl⟩)))⟩
  case h_5 => exact ⟨_, .inr (.inr (.inr (.inr ⟨rfl, rfl⟩)))⟩
  case h_6 => cases accepted

theorem said_some {key : String} {value : Json} {instruction : Instruction}
    (unique : value.UniqueKeys) :
    said key value = .ok (some instruction) ↔ Spells key value instruction := by
  constructor
  · intro spelled
    unfold said at spelled
    split at spelled
    case h_1 =>
      cases spelled
      exact .log value
    case h_2 =>
      obtain ⟨ticks, read, rfl⟩ := (Reader.map_optional_some nofun).1 spelled
      obtain ⟨rfl, fits⟩ := Reader.natural_eq_ok.1 read
      exact .sleep (Nat.lt_succ_of_le fits)
    case h_3 =>
      obtain ⟨made, read, rfl⟩ := (Reader.map_optional_some nofun).1 spelled
      exact .call ((Call.decode_eq_ok unique).1 read)
    case h_4 =>
      obtain ⟨awaited, read, rfl⟩ := (Reader.map_optional_some nofun).1 spelled
      exact .await ((Await.decode_eq_ok unique).1 read)
    case h_5 =>
      cases spelled
      exact .ret value
    case h_6 => cases spelled
  · intro spelled
    cases spelled with
    | log => rfl
    | @sleep ticks fits =>
        have read : natural32 (.int ticks) = .ok ticks :=
          Reader.natural_eq_ok.2 ⟨rfl, Nat.le_of_lt_succ fits⟩
        exact (Reader.map_optional_some nofun).2 ⟨ticks, read, rfl⟩
    | @call _ made spelled =>
        have read : Call.decode value = .ok made := (Call.decode_eq_ok unique).2 spelled
        exact (Reader.map_optional_some nofun).2 ⟨made, read, rfl⟩
    | @await _ awaited spelled =>
        have read : Await.decode value = .ok awaited := (Await.decode_eq_ok unique).2 spelled
        exact (Reader.map_optional_some nofun).2 ⟨awaited, read, rfl⟩
    | ret => rfl

theorem said_none {key : String} {value : Json} :
    said key value = .ok none ↔ IsAbsent (key, value) := by
  unfold said IsAbsent
  split
  case h_1 => simp
  case h_2 => simp [Reader.map_optional_none natural32 nofun]
  case h_3 => simp [Reader.map_optional_none Call.decode nofun]
  case h_4 => simp [Reader.map_optional_none Await.decode nofun]
  case h_5 => simp
  case h_6 => simp_all

theorem filterMap_eq_singleton {α β : Type} {f : α → Option β} {items : List α} {b : β}
    (distinct : items.Nodup) : items.filterMap f = [b] ↔
      ∃ a ∈ items, f a = some b ∧ ∀ other ∈ items, other ≠ a → f other = none := by
  rw [List.filterMap_eq_cons_iff]
  constructor
  · rintro ⟨front, a, back, rfl, before, found, after⟩
    rw [List.filterMap_eq_nil_iff] at after
    refine ⟨a, by simp, found, fun other member differs => ?_⟩
    rw [List.mem_append, List.mem_cons] at member
    obtain early | rfl | late := member
    · exact before other early
    · exact (differs rfl).elim
    · exact after other late
  · rintro ⟨a, member, found, others⟩
    obtain ⟨front, back, rfl⟩ := List.append_of_mem member
    have apart := List.nodup_middle.1 distinct
    rw [List.nodup_cons, List.mem_append, not_or] at apart
    refine ⟨front, a, back, rfl, fun other early => ?_, found, ?_⟩
    · exact others other (by simp [early]) fun same => apart.1.1 (same ▸ early)
    · rw [List.filterMap_eq_nil_iff]
      exact fun other late => others other (by simp [late]) fun same => apart.1.2 (same ▸ late)

theorem Draft.toList_eq (draft : Draft) : draft.toList = struct.fields.filterMap draft.get := by
  obtain ⟨log, sleep, call, await, ret⟩ := draft
  cases log <;> cases sleep <;> cases call <;> cases await <;> cases ret <;> rfl

theorem toList_eq_singleton {draft : Draft} {instruction : Instruction} :
    draft.toList = [instruction] ↔ ∃ key ∈ struct.fields, draft.get key = some instruction ∧
      ∀ other ∈ struct.fields, other ≠ key → draft.get other = none := by
  rw [Draft.toList_eq, filterMap_eq_singleton (by decide)]

theorem decode_iff {value : Json} {instruction : Instruction} :
    decode value = .ok instruction ↔ ∃ entries, struct.Gives value entries ∧
      ∃ draft, entries.foldlM (fun draft entry => enter draft entry.1 entry.2) {} = .ok draft ∧
        draft.toList = [instruction] := by
  unfold decode
  simp only [bind_eq_ok, Struct.read_eq_ok]
  constructor
  · rintro ⟨draft, ⟨entries, gives, folded⟩, single⟩
    split at single
    next only list =>
      cases single
      exact ⟨entries, gives, draft, folded, list⟩
    next => cases single
  · rintro ⟨entries, gives, draft, folded, list⟩
    refine ⟨draft, ⟨entries, gives, folded⟩, ?_⟩
    rw [list]
    rfl

theorem mem_fields_of_said {key : String} {value : Json} {instruction : Option Instruction}
    (accepted : said key value = .ok instruction) : key ∈ struct.fields := by
  unfold said at accepted
  split at accepted
  case h_6 => cases accepted
  all_goals decide

theorem get_filled {entries : List (String × Json)} {draft : Draft}
    (distinct : (entries.map Prod.fst).Nodup)
    (folded : entries.foldlM (fun draft entry => enter draft entry.1 entry.2) {} = .ok draft)
    (key : String) :
    Filled entries key (fun value found => said key value = .ok found) none (draft.get key) := by
  have empty : Draft.get {} key = none := by
    unfold Draft.get
    split <;> rfl
  rw [← empty]
  apply Struct.filled_of_fold (Draft.get · key) _ _ distinct folded
  · exact fun entered => (said_of_enter entered).1
  · exact fun differs entered => (said_of_enter entered).2 key (Ne.symm differs)

/-- An instruction is meant to have one key only. A second one goes unnoticed if it is null, and a
list passes for the values of the keys in their order. -/
theorem not_only_single_keys :
    decode (.obj [("log", .str "a"), ("sleep", .null)]) = .ok (.log (.str "a")) ∧
      decode (.arr [.str "a"]) = .ok (.log (.str "a")) ∧
      ¬∀ value instruction, decode value = .ok instruction ↔
        ∃ key payload, value = .obj [(key, payload)] ∧ Spells key payload instruction := by
  have beside : decode (.obj [("log", .str "a"), ("sleep", .null)]) = .ok (.log (.str "a")) := rfl
  refine ⟨beside, rfl, fun single => ?_⟩
  obtain ⟨key, payload, same, -⟩ := (single _ _).1 beside
  cases same

/-- A value is read as the instruction that one of its entries spells while all others are absent,
and as no other one. -/
theorem decodes_iff_spelled {value : Json} {instruction : Instruction} (unique : value.UniqueKeys) :
    decode value = .ok instruction ↔ Spelled value instruction := by
  rw [decode_iff]
  constructor
  · rintro ⟨entries, gives, draft, folded, list⟩
    have distinct := gives.nodup unique (by decide)
    have filled := get_filled distinct folded
    obtain ⟨key, -, single, others⟩ := toList_eq_singleton.1 list
    obtain ⟨payload, member, accepted⟩ | ⟨-, missing⟩ := filled key
    · rw [single, said_some (unique.part (gives.isPart member))] at accepted
      refine ⟨entries, gives, (key, payload), member, accepted, ?_⟩
      rintro ⟨other, payload'⟩ member' differs
      have accepted' := (filled other).reads distinct member'
      have apart : other ≠ key := by
        rintro rfl
        exact differs (by rw [Struct.value_unique distinct member' member])
      rwa [others other (mem_fields_of_said accepted') apart, said_none] at accepted'
    · cases single.symm.trans missing
  · rintro ⟨entries, gives, ⟨key, payload⟩, member, spells, others⟩
    have distinct := gives.nodup unique (by decide)
    have spelled := (said_some (unique.part (gives.isPart member))).2 spells
    have fits : ∀ entry ∈ entries, ∀ before, ∃ after,
        enter before entry.1 entry.2 = .ok after := by
      intro entry member' before
      by_cases same : entry = (key, payload)
      · subst same
        exact exists_enter spelled
      · exact exists_enter (said_none.2 (others entry member' same))
    obtain ⟨draft, folded⟩ := Struct.exists_fold fits {}
    have filled := get_filled distinct folded
    refine ⟨entries, gives, draft, folded, toList_eq_singleton.2 ?_⟩
    refine ⟨key, mem_fields_of_said spelled, ?_, fun other _ differs => ?_⟩
    · have accepted := (filled key).reads distinct member
      exact Except.ok.inj (accepted.symm.trans spelled)
    · obtain ⟨payload', member', accepted⟩ | ⟨-, missing⟩ := filled other
      · have absent := others (other, payload') member' (by simp [differs])
        exact Except.ok.inj (accepted.symm.trans (said_none.2 absent))
      · exact missing

theorem sleep_beside_null :
    (Json.obj [("call", .null), ("sleep", .int 3)]).UniqueKeys ∧
      decode (.obj [("call", .null), ("sleep", .int 3)]) = .ok (.sleep 3) := by
  have unique : (Json.obj [("call", .null), ("sleep", .int 3)]).UniqueKeys := by
    rintro entries (_ | _ | ⟨member, inside⟩)
    · decide
    · simp only [List.mem_cons, List.not_mem_nil, or_false] at member
      obtain rfl | rfl := member <;> cases inside
  refine ⟨unique, (decodes_iff_spelled unique).2 ⟨_, .map _, ("sleep", .int 3), by simp, ?_, ?_⟩⟩
  · exact .sleep (by decide)
  · simp [IsAbsent]

end Instruction

end Scenario

end Cadence
