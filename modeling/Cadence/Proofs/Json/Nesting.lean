import Cadence.Proofs.Json.Text
/-!
# Quotes and brackets

No text of an object ends in another one. A reader who follows quotes and brackets alone reaches
the end of an object's text with its last character. Were another object's text the end of it, the
two readers of that end would have to finish together. But either the first one is at a greater
depth all the time, or one of them is between quotes whenever the other is not.
-/

namespace Cadence.Json

inductive Reading where
  | fresh
  | between (depth : Nat)
  | quoted (depth : Nat)
  | escaped (depth : Nat)
  | done

namespace Reading

def close : Nat → Reading
  | 0 => done
  | depth + 1 => between depth

def next : Reading → Char → Option Reading
  | fresh, c => if c = '{' then some (between 0) else none
  | between depth, c =>
    if c = '"' then some (quoted depth)
    else if c = '\\' then none
    else if c = '{' ∨ c = '[' then some (between (depth + 1))
    else if c = '}' ∨ c = ']' then some (close depth)
    else some (between depth)
  | quoted depth, c =>
    if c = '"' then some (between depth)
    else if c = '\\' then some (escaped depth)
    else some (quoted depth)
  | escaped depth, _ => some (quoted depth)
  | done, _ => none

def after (reading : Reading) (text : List Char) : Option Reading :=
  text.foldlM next reading

theorem after_cons (reading : Reading) (c : Char) (text : List Char) :
    reading.after (c :: text) = (reading.next c).bind (after · text) := rfl

theorem after_append (reading : Reading) (front back : List Char) :
    reading.after (front ++ back) = (reading.after front).bind (after · back) := by
  unfold after
  rw [List.foldlM_append]
  rfl

theorem after_plain {depth : Nat} {chars : List Char}
    (plain : ∀ c ∈ chars, (between depth).next c = some (between depth)) (rest : List Char) :
    (between depth).after (chars ++ rest) = (between depth).after rest := by
  induction chars with
  | nil => rfl
  | cons c chars ih =>
      rw [List.cons_append, after_cons, plain c List.mem_cons_self, Option.bind_some]
      exact ih fun other member => plain other (List.mem_cons_of_mem _ member)

theorem next_numeric {depth : Nat} {c : Char} (numeric : isNumeric c = true) :
    (between depth).next c = some (between depth) := by
  have others : ∀ other ∈ ['"', '\\', '{', '[', '}', ']'], c ≠ other := by
    intro other member same
    subst same
    simp at member
    obtain rfl | rfl | rfl | rfl | rfl | rfl := member <;> simp [isNumeric] at numeric
  simp_all [next]

theorem after_escape (depth : Nat) (c : Char) (rest : List Char) :
    (quoted depth).after (escape c ++ rest) = (quoted depth).after rest := by
  unfold escape
  split
  case h_8 notQuote notSlash _ _ _ _ _ =>
    split
    · simp [after_cons, next]
    · rw [List.singleton_append, after_cons, next, if_neg notQuote, if_neg notSlash]
      rfl
  all_goals rfl

theorem after_string (depth : Nat) (text : String) (rest : List Char) :
    (between depth).after (emitString text rest) = (between depth).after rest := by
  have inside (chars : List Char) : (quoted depth).after (chars.flatMap escape ++ '"' :: rest) =
      (between depth).after rest := by
    induction chars with
    | nil => rfl
    | cons c chars ih => rw [List.flatMap_cons, List.append_assoc, after_escape, ih]
  exact inside text.toList

theorem after_list {α : Type} {emitOne : α → List Char → List Char} {items : List α} (depth : Nat)
    (each : ∀ item ∈ items, ∀ rest,
      (between depth).after (emitOne item rest) = (between depth).after rest)
    (rest : List Char) :
    (between depth).after (emitList emitOne items rest) = (between depth).after rest := by
  induction items with
  | nil => rfl
  | cons item items ih =>
      have behind := ih fun other member => each other (List.mem_cons_of_mem _ member)
      rw [emitList_cons, each item List.mem_cons_self]
      cases items with
      | nil => rfl
      | cons next items => exact behind

theorem after_emit (value : Json) (depth : Nat) (rest : List Char) :
    (between depth).after (value.emit rest) = (between depth).after rest := by
  induction value using induct generalizing depth rest with
  | null => rfl
  | bool value => cases value <;> rfl
  | int value => exact after_plain (fun c member => next_numeric (isNumeric_int c member)) rest
  | decimal value =>
      exact after_plain (fun c member => next_numeric (isNumeric_decimal c member)) rest
  | str text => exact after_string depth text rest
  | arr items each =>
      rw [emit, emitItems_eq]
      exact after_list (depth + 1) (fun item member => each item member (depth + 1)) (']' :: rest)
  | obj entries each =>
      rw [emit, emitEntries_eq]
      refine after_list (depth + 1) (fun entry member rest => ?_) ('}' :: rest)
      rw [emitEntry, after_string]
      exact each entry member (depth + 1) rest

theorem after_obj (entries : List (String × Json)) :
    fresh.after (emit (.obj entries) []) = some done := by
  rw [emit, emitEntries_eq]
  refine after_list 0 (fun entry member rest => ?_) ['}']
  rw [emitEntry, after_string]
  exact after_emit entry.2 0 rest

/-- A quote changes both readers at once, and neither can take a backslash while the other is
between quotes. -/
theorem not_both_done {text : List Char} {depth depth' : Nat}
    (inside : (quoted depth).after text = some done) :
    (between depth').after text ≠ some done := by
  intro outside
  induction text generalizing depth depth' with
  | nil => cases inside
  | cons c text ih =>
      simp only [after_cons, next] at inside outside
      split at outside
      next quote =>
        rw [if_pos quote] at inside
        exact ih outside inside
      next notQuote =>
        rw [if_neg notQuote] at inside
        split at outside
        next => cases outside
        next notSlash =>
          rw [if_neg notSlash] at inside
          split at outside
          next => exact ih inside outside
          next =>
            split at outside
            next =>
              cases depth' with
              | zero =>
                  cases text with
                  | nil => cases inside
                  | cons d text => cases outside
              | succ depth' => exact ih inside outside
            next => exact ih inside outside

theorem next_ne_fresh (reading : Reading) (c : Char) : reading.next c ≠ some fresh := by
  have closed (depth : Nat) : close depth ≠ fresh := by
    cases depth <;> exact nofun
  cases reading <;> grind [next]

theorem eq_nil_of_after_fresh {reading : Reading} {text : List Char}
    (stands : reading.after text = some fresh) : text = [] := by
  induction text generalizing reading with
  | nil => rfl
  | cons c text ih =>
      rw [after_cons, Option.bind_eq_some_iff] at stands
      obtain ⟨second, first, stands⟩ := stands
      cases ih stands
      cases stands
      exact (next_ne_fresh reading c first).elim

theorem eq_nil_of_append_obj {front : List Char} {entries others : List (String × Json)}
    (same : front ++ emit (.obj others) [] = emit (.obj entries) []) : front = [] := by
  have whole := after_obj entries
  have alone := after_obj others
  rw [← same, after_append, Option.bind_eq_some_iff] at whole
  obtain ⟨reading, stands, whole⟩ := whole
  obtain ⟨text, start⟩ : ∃ text, emit (.obj others) [] = '{' :: text := ⟨_, rfl⟩
  have opened : (between 0).after text = some done := by rwa [start] at alone
  cases reading with
  | fresh => exact eq_nil_of_after_fresh stands
  | between depth => cases (after_emit (.obj others) depth []).symm.trans whole
  | quoted depth =>
      rw [start] at whole
      have inside : (quoted depth).after text = some done := whole
      exact (not_both_done inside opened).elim
  | escaped depth =>
      rw [start] at whole
      have inside : (quoted depth).after text = some done := whole
      exact (not_both_done inside opened).elim
  | done =>
      rw [start] at whole
      cases whole

end Reading

end Cadence.Json
