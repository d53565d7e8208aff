import ModelQuery.Proofs.Outcome
import ModelQuery.Proofs.Records.Exports
import ModelQuery.Proofs.Records.Slices

/-!
# Walks over a collection

A collection has one cursor, which its caller moves and which every iterator over it moves as well.
An iterator itself does not read the cursor: it goes by the number of the row it comes to next, so
that it comes to the same rows in the same order wherever the cursor is sent in between.

Whatever is done with a collection, one look after the other, what is left behind is the collection
with its cursor at some place, and each iterator at the turn it was asked for (`Follows.look`,
`Follows.run`).  So the answers of an iterator depend on nothing but how often it was asked
(`Follows.answers`).  Indices, slices and walks find the records of the same places (`InOrder`), and
an iterator comes to them one by one up to the first row that becomes no record
(`walks_apart_from_cursor`).  Such a row ends an iterator, which yields nothing then but has moved
the cursor there already (`failed_step_moves_cursor`).
-/

namespace ModelQuery

open Outcome

/-! ## Looking at a collection -/

/-- Where a cursor is sent: an integer, or a truth value that stands for one. -/
inductive Offset where
  | int (n : Int)
  | flag (b : Bool)

namespace Offset

def toValue : Offset → Value
  | .int n => .int n
  | .flag b => .bool b

/-- The number it stands for. -/
def number : Offset → Int
  | .int n => n
  | .flag b => Value.ofBit b

end Offset

/-- What is done with a collection: with its cursor, with its records and cells, or with one of the
iterators over it. -/
inductive Look where
  | length
  | key
  | valid
  | current
  | next
  | rewind
  | seek (offset : Offset)
  | cell (name default : Value)
  | item (index : Value)
  | slice (start stop step : Value)
  | reversed
  | index (v start stop : Value)
  | asList (key value : Value)
  | setItem (index v : Value)
  | deleteItem (index : Value)
  | step (iterator : Nat)

/-- A look is a step of an iterator. -/
def Look.isStep (i : Nat) : Look → Bool
  | .step j => i == j
  | _ => false

/-- What is answered to a look. -/
inductive Seen where
  | done
  | value (v : Value)
  | record (r : Record)
  | records (rs : List Record)
  /-- An iterator has no more records. -/
  | ended
  | failed (e : Error)

namespace Seen

/-- The answer of something that may fail. -/
def of {α : Type} (answer : α → Seen) : Except Error α → Seen
  | .ok a => answer a
  | .error e => .failed e

/-- The answer of an iterator, which has a row or has come to its end. -/
def ofTurn : Option (Except Error Record) → Seen
  | some outcome => of .record outcome
  | none => .ended

end Seen

namespace Collection

/-- An iterator goes on: with its answer and the row it comes to next, and it leaves the cursor at
the row it came to.  An iterator that fails is at its end. -/
def advance (c : Collection) : Option Nat → Seen × Option Nat × Collection
  | none => (.ended, none, c)
  | some place =>
    match c.rows[place]? with
    | none => (.ended, none, c)
    | some row =>
      match visit place row c with
      | .ok r c => (.record r, some (place + 1), c)
      | .error e c => (.failed e, none, c)

end Collection

/-- A collection and the iterators over it: the row each of them comes to next, or nothing behind
its end.  One that was not asked for anything yet is no different from one that is still to be
made. -/
structure Viewed where
  collection : Collection
  iterators : Nat → Option Nat

namespace Viewed

/-- A collection and all iterators before its first row. -/
def start (c : Collection) : Viewed := ⟨c, fun _ => some 0⟩

/-- The answer to a look, and what is left behind. -/
def look (s : Viewed) : Look → Seen × Viewed
  | .length => (.value (.int s.collection.size), s)
  | .key => (.value s.collection.position.toValue, s)
  | .valid => (.value (.bool s.collection.valid), s)
  | .current => (.of .record s.collection.current, s)
  | .next => (.done, { s with collection := s.collection.next })
  | .rewind => (.done, { s with collection := s.collection.rewind })
  | .seek offset =>
    match s.collection.seek offset.toValue with
    | .ok (found, c) => (.value (.bool found), { s with collection := c })
    | .error e => (.failed e, s)
  | .cell name default => (.of .value (s.collection.cellAtCursor name default), s)
  | .item index => (.of .record (s.collection.get index), s)
  | .slice start stop step =>
    (.of .records (do s.collection.slice (← Slice.ofValues start stop step)), s)
  | .reversed => (.of .records s.collection.reversed, s)
  | .index v start stop => (.of .value (s.collection.index v start stop), s)
  | .asList key value => (.of .value (s.collection.asList key value), s)
  | .setItem _ _ | .deleteItem _ => (.failed .readOnly, s)
  | .step i =>
    let (answer, place, c) := s.collection.advance (s.iterators i)
    (answer, ⟨c, Function.update s.iterators i place⟩)

/-- What is left behind by looks one after the other. -/
def after (looks : List Look) (s : Viewed) : Viewed := looks.foldl (fun s a => (s.look a).2) s

/-- What an iterator answered during looks one after the other. -/
def answers (i : Nat) : List Look → Viewed → List Seen
  | [], _ => []
  | a :: rest, s =>
    if a.isStep i then (s.look a).1 :: answers i rest (s.look a).2 else answers i rest (s.look a).2

end Viewed

/-- How often an iterator was asked. -/
def stepsOf (i : Nat) (looks : List Look) : Nat := looks.countP (·.isStep i)

/-! ## What an iterator comes to -/

namespace Collection

variable {c : Collection} {place : Nat}

/-- The collection with its cursor elsewhere. -/
def sentTo (c : Collection) (p : Position) : Collection := { c with position := p }

/-- The rows before a place all are there and become records. -/
def loadsBefore (c : Collection) (place : Nat) : Bool :=
  (List.range place).all fun k => (c.recordAt k).isOk

/-- What an iterator comes to when it was asked so often: the next row, as a record or as the
failure to load it, and nothing behind a row that failed or behind the last. -/
def turn (c : Collection) (place : Nat) : Option (Except Error Record) :=
  if c.loadsBefore place = true ∧ place < c.size then some (c.recordAt place) else none

/-- The row an iterator comes to next when it was asked so often. -/
def awaited (c : Collection) (place : Nat) : Option Nat :=
  if c.loadsBefore place then some place else none

/-- All rows before a place load just if those before do, and the last of them does. -/
theorem loadsBefore_succ (c : Collection) (place : Nat) :
    c.loadsBefore (place + 1) = (c.loadsBefore place && (c.recordAt place).isOk) := by
  rw [loadsBefore, List.range_succ, List.all_append, List.all_cons, List.all_nil, Bool.and_true]
  rfl

theorem recordAt_of_row {row : Row} (h : c.rows[place]? = some row) :
    c.recordAt place = c.load row := by
  rw [recordAt, h]

/-- A visit loads the row, wherever the cursor stood, and leaves the cursor there. -/
theorem visit_eq (place : Nat) (row : Row) (c : Collection) :
    visit place row c =
      match c.load row with
      | .ok r => .ok r (c.sentTo (.index place))
      | .error e => .error e (c.sentTo (.index place)) :=
  rfl

/-- An iterator that comes to a row visits it. -/
theorem advance_of_row {row : Row} (h : c.rows[place]? = some row) :
    c.advance (some place) =
      (.of .record (c.load row), if (c.load row).isOk then some (place + 1) else none,
        c.sentTo (.index place)) := by
  rw [advance, h]
  dsimp only
  rw [visit_eq]
  cases c.load row with
  | ok r => rfl
  | error e => rfl

/-- An iterator that was asked so often takes its turn, and waits for the next.  If it comes to a
row, the cursor is there. -/
theorem advance_awaited (c : Collection) (p : Position) (place : Nat) :
    (c.sentTo p).advance (c.awaited place) =
      (.ofTurn (c.turn place), c.awaited (place + 1),
        c.sentTo (if (c.turn place).isSome then .index place else p)) := by
  rw [turn, awaited, awaited, loadsBefore_succ]
  cases c.loadsBefore place with
  | false => rfl
  | true =>
      rw [Bool.true_and, if_pos rfl]
      cases hrow : c.rows[place]? with
      | none =>
          have hsize : ¬place < c.size := Nat.not_lt.mpr (List.getElem?_eq_none_iff.mp hrow)
          have hrow' : (c.sentTo p).rows[place]? = none := hrow
          have hrecord : c.recordAt place = .error .outOfRange := by rw [recordAt, hrow]
          rw [if_neg fun hall => hsize hall.2, hrecord, advance, hrow']
          rfl
      | some row =>
          have hsize : place < c.size := (List.getElem?_eq_some_iff.mp hrow).1
          have hrow' : (c.sentTo p).rows[place]? = some row := hrow
          rw [if_pos ⟨rfl, hsize⟩, advance_of_row hrow', recordAt_of_row hrow]
          rfl

end Collection

/-! ## The cursor -/

namespace Position

variable {p : Position} {n : Nat}

theorem isBefore_of_toIndex (h : p.toIndex = .ok n) (length : Nat) :
    p.isBefore length = decide (n < length) := by
  cases p with
  | index m =>
      cases h
      rfl
  | flag b =>
      cases h
      cases b with
      | false => exact decide_eq_decide.mpr Int.ofNat_lt
      | true => exact decide_eq_decide.mpr Int.ofNat_lt
  | real x => cases h

theorem toIndex_toValue (h : p.toIndex = .ok n) : p.toValue.toIndex = .ok (n : Int) := by
  cases p with
  | index m =>
      cases h
      rfl
  | flag b =>
      cases h
      cases b with
      | false => rfl
      | true => rfl
  | real x => cases h

theorem next_toIndex (h : p.toIndex = .ok n) : p.next.toIndex = .ok (n + 1) := by
  cases p with
  | index m =>
      cases h
      rfl
  | flag b =>
      cases h
      rfl
  | real x => cases h

end Position

/-- There is a row at an offset, of so many. -/
def Offset.isWithin (offset : Offset) (size : Nat) : Bool :=
  decide (0 ≤ offset.number ∧ offset.number < size)

namespace Collection

variable {c : Collection} {p : Position} {n : Nat}

/-- To seek a position sends the cursor there, if it is before the end. -/
theorem seek_of_position {v : Value} (h : Position.ofValue? v = .ok (some p)) :
    c.seek v = .ok (p.isBefore c.size, if p.isBefore c.size then c.sentTo p else c) := by
  rw [seek, h]
  show Except.ok (if p.isBefore c.size then (true, c.sentTo p) else (false, c)) = _
  cases p.isBefore c.size with
  | true => rfl
  | false => rfl

/-- The cursor goes to an offset that is a row's, and is left alone by any other. -/
theorem seek_eq (c : Collection) (offset : Offset) :
    ∃ p : Position, p.toIndex = .ok offset.number.toNat ∧
      c.seek offset.toValue =
        .ok (offset.isWithin c.size, if offset.isWithin c.size then c.sentTo p else c) := by
  cases offset with
  | int n =>
      refine ⟨.index n.toNat, rfl, ?_⟩
      by_cases hn : 0 ≤ n
      · have hposition : Position.ofValue? (.int n) = .ok (some (.index n.toNat)) :=
          congrArg Except.ok (if_pos hn)
        have hwithin : (Offset.int n).isWithin c.size = (Position.index n.toNat).isBefore c.size :=
          decide_eq_decide.mpr (by rw [Offset.number]; omega)
        rw [hwithin]
        exact seek_of_position hposition
      · have hposition : Position.ofValue? (.int n) = .ok none := congrArg Except.ok (if_neg hn)
        have hwithin : (Offset.int n).isWithin c.size = false :=
          decide_eq_false fun hall => hn hall.1
        rw [hwithin, seek, Offset.toValue, hposition]
        rfl
  | flag b =>
      refine ⟨.flag b, rfl, ?_⟩
      have hwithin : (Offset.flag b).isWithin c.size = (Position.flag b).isBefore c.size := by
        refine decide_eq_decide.mpr (and_iff_right ?_)
        cases b with
        | false => exact Int.le_refl 0
        | true => exact Int.zero_le_ofNat 1
      rw [hwithin]
      exact seek_of_position rfl

/-- The record at the cursor is the one of its index, or none behind the end. -/
theorem current_of_toIndex (h : c.position.toIndex = .ok n) :
    c.current = if n < c.size then c.recordAt n else .ok .absent := by
  have hvalid : c.valid = decide (n < c.size) := Position.isBefore_of_toIndex h c.size
  by_cases hn : n < c.size
  · rw [decide_eq_true hn] at hvalid
    have hrow : c.rows[n]? = some c.rows[n] := List.getElem?_eq_getElem hn
    have hcurrent : c.currentRow? = .ok (some c.rows[n]) := by
      rw [currentRow?, hvalid, h]
      exact congrArg Except.ok hrow
    rw [if_pos hn, current, hcurrent, recordAt, hrow]
    rfl
  · rw [decide_eq_false hn] at hvalid
    rw [if_neg hn, current, currentRow?_of_not_valid hvalid]
    rfl

/-- Where a look leaves the cursor that stood at a place, when each iterator was asked so often. -/
def moved (c : Collection) (turns : Nat → Nat) (n : Nat) : Look → Nat
  | .next => n + 1
  | .rewind => 0
  | .seek offset => if offset.isWithin c.size then offset.number.toNat else n
  | .step i => if (c.turn (turns i)).isSome then turns i else n
  | _ => n

end Collection

/-! ## Looks one after the other -/

/-- A collection as it was, except that its cursor is at a place, and iterators over it each of
which was asked so often. -/
structure Follows (c : Collection) (turns : Nat → Nat) (n : Nat) (s : Viewed) : Prop where
  collection : ∃ p, p.toIndex = .ok n ∧ s.collection = c.sentTo p
  iterators : ∀ i, s.iterators i = c.awaited (turns i)

/-- How often each iterator was asked after one more look. -/
def turned (turns : Nat → Nat) (a : Look) (i : Nat) : Nat := turns i + if a.isStep i then 1 else 0

namespace Follows

variable {c : Collection} {turns : Nat → Nat} {n : Nat} {s : Viewed}

/-- A walk that starts at the cursor follows it. -/
theorem start (h : c.position.toIndex = .ok n) : Follows c (fun _ => 0) n (.start c) where
  collection := ⟨_, h, rfl⟩
  iterators := fun _ => rfl

/-- A look that is no step leaves the iterators alone. -/
theorem of_collection {s' : Viewed} {a : Look} {n' : Nat} (h : Follows c turns n s)
    (hstep : ∀ i, a.isStep i = false) (hiterators : s'.iterators = s.iterators)
    (hcollection : ∃ p, p.toIndex = .ok n' ∧ s'.collection = c.sentTo p) :
    Follows c (turned turns a) n' s' := by
  refine ⟨hcollection, fun i => ?_⟩
  rw [hiterators, h.iterators, turned, hstep]
  rfl

/-- A seek answers whether there is a row, and only then moves the cursor. -/
theorem look_seek {p : Position} (hc : s.collection = c.sentTo p) (offset : Offset) :
    ∃ q : Position, q.toIndex = .ok offset.number.toNat ∧
      s.look (.seek offset) =
        (.value (.bool (offset.isWithin c.size)),
          { s with collection := if offset.isWithin c.size then c.sentTo q else c.sentTo p }) := by
  obtain ⟨q, hq, hseek⟩ := s.collection.seek_eq offset
  have hsize : s.collection.size = c.size := by
    rw [hc]
    rfl
  refine ⟨q, hq, ?_⟩
  rw [Viewed.look, hseek, hsize, hc]
  rfl

/-- A step answers what the iterator comes to, whatever happened in between. -/
theorem look_step (h : Follows c turns n s) {p : Position} (hc : s.collection = c.sentTo p)
    (i : Nat) :
    s.look (.step i) =
      (.ofTurn (c.turn (turns i)),
        ⟨c.sentTo (if (c.turn (turns i)).isSome then .index (turns i) else p),
          Function.update s.iterators i (c.awaited (turns i + 1))⟩) := by
  rw [Viewed.look, hc, h.iterators, Collection.advance_awaited]

/-- One look moves the cursor to where it should be, and asks one iterator at most. -/
theorem look (h : Follows c turns n s) (a : Look) :
    Follows c (turned turns a) (c.moved turns n a) (s.look a).2 := by
  obtain ⟨p, hp, hc⟩ := h.collection
  cases a with
  | next =>
      refine h.of_collection (fun _ => rfl) rfl ⟨_, Position.next_toIndex hp, ?_⟩
      show s.collection.next = _
      rw [hc]
      rfl
  | rewind =>
      refine h.of_collection (fun _ => rfl) rfl ⟨.index 0, rfl, ?_⟩
      show s.collection.rewind = _
      rw [hc]
      rfl
  | seek offset =>
      obtain ⟨q, hq, hlook⟩ := look_seek hc offset
      rw [hlook]
      refine h.of_collection (fun _ => rfl) rfl ?_
      rw [Collection.moved]
      cases offset.isWithin c.size with
      | true => exact ⟨q, hq, rfl⟩
      | false => exact ⟨p, hp, rfl⟩
  | step i =>
      rw [h.look_step hc]
      constructor
      case collection =>
        rw [Collection.moved]
        cases c.turn (turns i) with
        | some outcome => exact ⟨.index (turns i), rfl, rfl⟩
        | none => exact ⟨p, hp, rfl⟩
      case iterators =>
        intro j
        rw [turned]
        by_cases hj : j = i
        · subst hj
          show Function.update s.iterators j (c.awaited (turns j + 1)) j = _
          rw [Function.update_self, Look.isStep, beq_self_eq_true]
          rfl
        · show Function.update s.iterators i (c.awaited (turns i + 1)) j = _
          rw [Function.update_of_ne hj, h.iterators, Look.isStep, beq_eq_false_iff_ne.mpr hj]
          rfl
  | _ => exact h.of_collection (fun _ => rfl) rfl h.collection

/-- Looks one after the other only move the cursor and ask the iterators. -/
theorem run (h : Follows c turns n s) (looks : List Look) :
    ∃ n', Follows c (fun i => turns i + stepsOf i looks) n' (s.after looks) := by
  induction looks generalizing turns n s with
  | nil => exact ⟨n, h⟩
  | cons a rest ih =>
      obtain ⟨n', hrest⟩ := ih (h.look a)
      have hturns : (fun i => turned turns a i + stepsOf i rest) =
          fun i => turns i + stepsOf i (a :: rest) := by
        funext i
        rw [turned, stepsOf, stepsOf, List.countP_cons]
        omega
      exact ⟨n', hturns ▸ hrest⟩

/-- Each iterator takes its turns in order. -/
theorem answers (h : Follows c turns n s) (i : Nat) (looks : List Look) :
    s.answers i looks =
      (List.range (stepsOf i looks)).map fun k => .ofTurn (c.turn (turns i + k)) := by
  induction looks generalizing turns n s with
  | nil => rfl
  | cons a rest ih =>
      have hrest := ih (h.look a)
      rw [Viewed.answers, hrest, stepsOf, stepsOf, List.countP_cons, turned]
      cases ha : a.isStep i with
      | false => rfl
      | true =>
          obtain ⟨p, -, hc⟩ := h.collection
          have hstep : a = .step i := by
            cases a with
            | step j => rw [eq_of_beq ha]
            | _ => cases ha
          rw [if_pos rfl, if_pos rfl, List.range_succ_eq_map, List.map_cons, List.map_map, hstep,
            h.look_step hc]
          refine congrArg _ (List.map_congr_left fun k _ => ?_)
          show _ = Seen.ofTurn (c.turn (turns i + (k + 1)))
          rw [Nat.add_assoc, Nat.add_comm 1 k]

end Follows

/-! ## All records in one order -/

namespace Collection

variable {c : Collection} {p : Position} {place : Nat}

/-- An index that has a place gets the record there. -/
theorem get_of_placeOf? {i : Int} (h : placeOf? c.size i = some place) :
    c.get (.int i) = c.recordAt place := by
  have hindex : (Value.int i).toIndex = .ok i := rfl
  simp only [get, hindex, bind, Except.bind, h]

theorem get_of_none {i : Int} (h : placeOf? c.size i = none) :
    c.get (.int i) = .error .outOfRange := by
  have hindex : (Value.int i).toIndex = .ok i := rfl
  simp only [get, hindex, bind, Except.bind, h]
  rfl

/-- A place has its number as an index, and also the one counted from the end. -/
theorem placeOf?_eq {length place : Nat} (h : place < length) :
    placeOf? length place = some place ∧ placeOf? length (place - length) = some place := by
  have hneg : ¬((place : Int) < 0) := by omega
  have hpos : ((place : Int) - length) < 0 := by omega
  have hback : (place : Int) - length + length = place := by omega
  have hplace : (0 : Int) ≤ place ∧ (place : Int) < length := by omega
  rw [placeOf?, placeOf?, if_neg hneg, if_pos hpos, hback]
  exact ⟨if_pos hplace, if_pos hplace⟩

/-- Indices beyond either end have no place. -/
theorem placeOf?_eq_none {length : Nat} {i : Int} (h : i < -length ∨ length ≤ i) :
    placeOf? length i = none := by
  rw [placeOf?]
  refine if_neg fun hall => ?_
  split at hall
  · omega
  · omega

/-- The rows by their places, whatever stands at other ones. -/
theorem rows_eq (c : Collection) : c.rows = (List.range c.size).map fun k => c.rows[k]?.getD [] := by
  refine List.ext_getElem ?_ fun k hk _ => ?_
  · rw [List.length_map, List.length_range]
    rfl
  · rw [List.getElem_map, List.getElem_range, List.getElem?_eq_getElem hk]
    rfl

/-- A row is loaded as the record of its place. -/
theorem load_eq_recordAt (h : place < c.size) :
    c.load (c.rows[place]?.getD []) = c.recordAt place := by
  have hrow : c.rows[place]? = some c.rows[place] := List.getElem?_eq_getElem h
  rw [recordAt_of_row hrow, hrow]
  rfl

/-- Rows are loaded as the records at their places. -/
theorem mapM_load_eq {places : List Nat} (h : ∀ place ∈ places, place < c.size) :
    (places.map fun place => c.rows[place]?.getD []).mapM c.load = places.mapM c.recordAt :=
  mapM_map_of_eq fun place hplace => load_eq_recordAt (h place hplace)

/-- All rows are loaded as the records of all places, in order. -/
theorem mapM_load_rows (c : Collection) :
    c.rows.mapM c.load = (List.range c.size).mapM c.recordAt := by
  rw [c.rows_eq]
  exact mapM_load_eq fun place hplace => List.mem_range.mp hplace

/-- Reversed, they are loaded in the opposite order. -/
theorem reversed_eq (c : Collection) :
    c.reversed = (List.range c.size).reverse.mapM c.recordAt := by
  rw [reversed, c.rows_eq, ← List.map_reverse]
  exact mapM_load_eq fun place hplace => List.mem_range.mp (List.mem_reverse.mp hplace)

/-- A walk loads its rows in order, wherever the cursor stood. -/
theorem visitAll_eq (rows : List Row) (place : Nat) (p : Position) :
    ∃ q, visitAll place rows (c.sentTo p) =
      match rows.mapM c.load with
      | .ok rs => .ok rs (c.sentTo q)
      | .error e => .error e (c.sentTo q) := by
  induction rows generalizing place p with
  | nil => exact ⟨p, rfl⟩
  | cons row rest ih =>
      obtain ⟨q, hq⟩ := ih (place + 1) (.index place)
      have hvisit : visit place row (c.sentTo p) = match c.load row with
          | .ok r => .ok r (c.sentTo (.index place))
          | .error e => .error e (c.sentTo (.index place)) := visit_eq place row (c.sentTo p)
      have hwalk : visitAll place (row :: rest) = visit place row >>= fun r =>
          visitAll (place + 1) rest >>= fun rs => pure (r :: rs) := rfl
      rw [hwalk, List.mapM_cons]
      cases hload : c.load row with
      | error e =>
          rw [hload] at hvisit
          exact ⟨.index place, Step.bind_error hvisit⟩
      | ok r =>
          rw [hload] at hvisit
          rw [Step.bind_ok hvisit]
          refine ⟨q, ?_⟩
          cases hrest : rest.mapM c.load with
          | error e =>
              rw [hrest] at hq
              exact Step.bind_error hq
          | ok rs =>
              rw [hrest] at hq
              exact Step.bind_ok hq

/-- If all rows become records, an iterator comes to each of them, and then to its end. -/
theorem turn_of_loaded {rs : List Record} (h : (List.range c.size).mapM c.recordAt = .ok rs)
    (k : Nat) : c.turn k = rs[k]?.map .ok := by
  have hlength : rs.length = c.size := (length_of_mapM h).trans List.length_range
  have hrecord : ∀ k (hk : k < rs.length), c.recordAt k = .ok rs[k] := by
    intro k hk
    obtain ⟨-, hall⟩ := List.forall₂_iff_get.mp (forall₂_of_mapM h)
    have hget := hall k (by rw [List.length_range, ← hlength]; exact hk) hk
    rw [List.get_eq_getElem, List.getElem_range] at hget
    exact hget
  rw [turn]
  by_cases hk : k < rs.length
  · have hloads : c.loadsBefore k = true := by
      refine List.all_eq_true.mpr fun j hj => ?_
      rw [hrecord j ((List.mem_range.mp hj).trans hk)]
      rfl
    rw [if_pos ⟨hloads, hlength ▸ hk⟩, hrecord k hk, List.getElem?_eq_getElem hk]
    rfl
  · rw [if_neg fun hall => hk (hlength ▸ hall.2),
      List.getElem?_eq_none_iff.mpr (Nat.le_of_not_lt hk)]
    rfl

end Collection

/-- All ways to look at the records of a collection lead to the records at the places of another,
each in its order: an index to one of them, a slice to the places some steps from its first and
before its end, one behind the other in the direction of its step, and a walk to all, forwards or
backwards. -/
structure InOrder (c d : Collection) : Prop where
  index : ∀ place < c.size, d.get (.int place) = c.recordAt place ∧
    d.get (.int (place - c.size)) = c.recordAt place
  outside : ∀ i : Int, i < -c.size ∨ c.size ≤ i → d.get (.int i) = .error .outOfRange
  slice : ∀ s : Slice, d.slice s = (s.places c.size).mapM c.recordAt
  places : ∀ s : Slice, s.step ≠ 0 → (s.places c.size).Pairwise (Slice.Onward s.step) ∧
    ∀ place, place ∈ s.places c.size ↔ place < c.size ∧
      ∃ j : Nat, (place : Int) = s.first c.size + j * s.step ∧
        Slice.Inside s.step (s.last c.size) place
  reversed : d.reversed = (List.range c.size).reverse.mapM c.recordAt
  walked : ∃ p, d.records = match (List.range c.size).mapM c.recordAt with
    | .ok rs => .ok rs (c.sentTo p)
    | .error e => .error e (c.sentTo p)

/-- A collection whose cursor is sent elsewhere has the same records in order. -/
theorem inOrder_sentTo (c : Collection) (p : Position) : InOrder c (c.sentTo p) where
  index := fun _ hplace =>
    ⟨Collection.get_of_placeOf? (Collection.placeOf?_eq hplace).1,
      Collection.get_of_placeOf? (Collection.placeOf?_eq hplace).2⟩
  outside := fun _ hi => Collection.get_of_none (Collection.placeOf?_eq_none hi)
  slice := fun _ => rfl
  places := fun _ hstep =>
    ⟨Slice.places_onward hstep c.size, fun _ =>
      ⟨fun h => ⟨Slice.lt_of_mem_places h, Slice.mem_places.mp h⟩, fun h => Slice.mem_places.mpr h.2⟩⟩
  reversed := (c.sentTo p).reversed_eq
  walked := by
    have h := Collection.visitAll_eq (c := c) c.rows 0 p
    rw [c.mapM_load_rows] at h
    exact h

/-- What a collection shows after some looks at it, with its cursor at a place.

Only the cursor is not as it was: it stands at a number that is not negative, and another look moves
it only to where it should be.  There is a current record exactly if the cursor stands at a row.
The records are found in one order, and each iterator comes to them in this order, whatever was done
in between. -/
structure Presents (c : Collection) (before : List Look) (n : Nat) (s : Viewed) : Prop where
  kept : ∃ p, s.collection = c.sentTo p
  key : s.collection.position.toValue.toIndex = .ok (n : Int)
  valid : s.collection.valid = decide (n < c.size)
  current : s.collection.current = if n < c.size then c.recordAt n else .ok .absent
  moved : ∀ a, ∃ p, p.toIndex = .ok (c.moved (fun i => stepsOf i before) n a) ∧
    (s.look a).2.collection = c.sentTo p
  sought : ∀ offset, (s.look (.seek offset)).1 = .value (.bool (offset.isWithin c.size))
  setItem : ∀ index v, s.look (.setItem index v) = (.failed .readOnly, s)
  deleteItem : ∀ index, s.look (.deleteItem index) = (.failed .readOnly, s)
  order : InOrder c s.collection
  answers : ∀ i, (Viewed.start c).answers i before =
    (List.range (stepsOf i before)).map fun k => .ofTurn (c.turn k)
  loaded : ∀ rs, c.rows.mapM c.load = .ok rs → ∀ i, (Viewed.start c).answers i before =
    (List.range (stepsOf i before)).map fun k => (rs[k]?.map .record).getD .ended

/-- **ONE CURSOR, MANY WALKS**: let a collection have its cursor at an integer, and let it be looked
at in any way, with any number of iterators over it in between.  Its rows stay.  The cursor moves
only with `next`, `rewind`, a `seek` to one of the rows and the step of an iterator that comes to a
row, and a `seek` to any other place is refused.  The current record is that at the cursor.
Indices, slices and walks find one order of records, and each iterator comes to every row once, in
this order, up to one that becomes no record. -/
theorem walks_apart_from_cursor (c : Collection) {start : Nat}
    (h : c.position.toIndex = .ok start) (before : List Look) :
    ∃ n, Presents c before n ((Viewed.start c).after before) := by
  have hstart := Follows.start h
  obtain ⟨n, hfollows⟩ := hstart.run before
  obtain ⟨p, hp, hc⟩ := hfollows.collection
  have hanswers : ∀ i, (Viewed.start c).answers i before =
      (List.range (stepsOf i before)).map fun k => .ofTurn (c.turn k) := by
    intro i
    rw [hstart.answers i before]
    simp only [Nat.zero_add]
  refine ⟨n, ?_⟩
  constructor
  case kept => exact ⟨p, hc⟩
  case key =>
    rw [hc]
    exact Position.toIndex_toValue hp
  case valid =>
    rw [hc]
    exact Position.isBefore_of_toIndex hp c.size
  case current =>
    rw [hc]
    exact Collection.current_of_toIndex (c := c.sentTo p) hp
  case moved =>
    intro a
    have hmoved := (hfollows.look a).collection
    simp only [Nat.zero_add] at hmoved
    exact hmoved
  case sought =>
    intro offset
    obtain ⟨q, -, hlook⟩ := Follows.look_seek hc offset
    rw [hlook]
  case setItem => exact fun _ _ => rfl
  case deleteItem => exact fun _ => rfl
  case order =>
    rw [hc]
    exact inOrder_sentTo c p
  case answers => exact hanswers
  case loaded =>
    intro rs hrs i
    rw [c.mapM_load_rows] at hrs
    rw [hanswers i]
    refine List.map_congr_left fun k _ => ?_
    rw [Collection.turn_of_loaded hrs k]
    cases rs[k]? with
    | none => rfl
    | some r => rfl

/-- Two rows without a model. -/
def pairOfRows : Collection :=
  { model := none, rows := [[(.text "id", .int 1)], [(.text "id", .int 2)]], registry := none }

/-- Two iterators, with moves of the cursor in between. -/
def pairLooks : List Look :=
  [.step 0, .seek (.int 1), .step 1, .next, .step 0, .rewind, .step 0]

/-- The first iterator comes to both rows, wherever the cursor is sent. -/
theorem pair_walked_apart :
    pairOfRows.position.toIndex = .ok 0 ∧
      (∃ n, Presents pairOfRows pairLooks n ((Viewed.start pairOfRows).after pairLooks)) ∧
      (Viewed.start pairOfRows).answers 0 pairLooks =
        [.record (.cell (Row.toValue [(.text "id", .int 1)])),
          .record (.cell (Row.toValue [(.text "id", .int 2)])), .ended] := by
  obtain ⟨n, hpresents⟩ := walks_apart_from_cursor pairOfRows rfl pairLooks
  exact ⟨rfl, ⟨n, hpresents⟩, hpresents.loaded _ rfl 0⟩

/-- Posts with their comments, as they are read from a class. -/
def commentedPost : Model :=
  { name := "post", table := "posts"
    fields := .ofList
      [.plain "id" "" true "post", .hasMany "comments" "" false "post" ⟨"comment", "post_id"⟩]
    sorting := [], loadWith := [], group := defaultGroup, primaryKey := "id"
    factory := some (Record.instanceOf "Post" fun attr =>
      if attr = "comments" then .ownedMany else .anything) }

/-- Posts, the second of which has a number in the place of its comments. -/
def countedPosts : Collection :=
  { model := some commentedPost
    rows := [[(.text "id", .int 1)], [(.text "comments", .int 5)], [(.text "id", .int 3)]]
    registry := none }

/-- A step that comes to a row which becomes no record yields nothing, but has moved the cursor
there; and the iterator is at its end, though there is a record behind that row. -/
theorem failed_step_moves_cursor :
    ((Viewed.start countedPosts).after [.step 0]).collection.position.toIndex = .ok 0 ∧
      ((Viewed.start countedPosts).after [.step 0, .step 0]).collection.position.toIndex = .ok 1 ∧
      ∃ first last,
        (Viewed.start countedPosts).answers 0 [.step 0, .step 0, .step 0] =
          [.record first, .failed .wrongType, .ended] ∧
        countedPosts.get (.int 2) = .ok last :=
  ⟨rfl, rfl, _, _, rfl, rfl⟩

end ModelQuery
