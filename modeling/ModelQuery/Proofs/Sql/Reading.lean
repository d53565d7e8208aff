import ModelQuery.Proofs.Sql.Truth

/-!
# Reading the text of a formula

Whoever reads a condition sees tests, the two connectives and parentheses, and takes AND to bind
tighter than OR.  `Formula.symbols` is what stands in the text, `read` is that reader: it goes over
the symbols once and keeps, for every parenthesis that is still open, the finished alternatives and
the factors of the one being read.

The wording of a formula spells its symbols (`tokens_eq_spelled`), and what is read from them has
the same tests in the same order and says the same (`read_symbols`).  It need not be the same
formula, since parentheses between equal connectives are not written.
-/

namespace ModelQuery.Sql

variable {α β : Type}

/-! ## Symbols -/

/-- What a reader tells apart in the text of a formula; a test is one thing. -/
inductive Symbol (α : Type) where
  | test (t : α)
  | and
  | or
  | opening
  | closing
deriving DecidableEq, Repr

namespace Symbol

/-- The symbol with its test replaced. -/
def map (f : α → β) : Symbol α → Symbol β
  | .test t => .test (f t)
  | .and => .and
  | .or => .or
  | .opening => .opening
  | .closing => .closing

/-- How a symbol is written when `word` writes a test. -/
def tokens (word : α → List Token) : Symbol α → List Token
  | .test t => word t
  | .and => [.word " AND "]
  | .or => [.word " OR "]
  | .opening => [.word "("]
  | .closing => [.word ")"]

end Symbol

/-- Several symbols written one after the other. -/
def spelled (word : α → List Token) (ss : List (Symbol α)) : List Token :=
  ss.flatMap (Symbol.tokens word)

namespace Formula

/-- Symbols in parentheses. -/
def enclosed (ss : List (Symbol α)) : List (Symbol α) := [.opening] ++ ss ++ [.closing]

/-- The symbols of an operand of AND. -/
def factor : Formula α → List (Symbol α) → List (Symbol α)
  | .or _ _, ss => enclosed ss
  | _, ss => ss

/-- The symbols in the text of a formula. -/
def symbols : Formula α → List (Symbol α)
  | .test t => [.test t]
  | .and l r => l.factor l.symbols ++ [.and] ++ r.factor r.symbols
  | .or l r => l.symbols ++ [.or] ++ r.symbols

theorem spelled_append (word : α → List Token) (ss ts : List (Symbol α)) :
    spelled word (ss ++ ts) = spelled word ss ++ spelled word ts :=
  List.flatMap_append

/-- An operand of AND is spelled as a conjunct. -/
theorem spelled_factor (word : α → List Token) (f : Formula α) :
    spelled word (f.factor f.symbols) = f.conjunct (spelled word f.symbols) := by
  cases f with
  | test t => rfl
  | and l r => rfl
  | or l r =>
      show spelled word (enclosed _) = parenthesized _
      rw [enclosed, spelled_append, spelled_append]
      rfl

/-- Inside a formula of several tests no test stands alone. -/
theorem tokens_false (word : Bool → α → List Token) (f : Formula α) :
    f.tokens word false = spelled (word false) f.symbols := by
  induction f with
  | test t => exact (List.append_nil _).symm
  | and l r ihl ihr =>
      rw [tokens, symbols, ihl, ihr, spelled_append, spelled_append, spelled_factor,
        spelled_factor]
      rfl
  | or l r ihl ihr =>
      rw [tokens, symbols, ihl, ihr, spelled_append, spelled_append]
      rfl

/-- The wording of a formula spells its symbols; a test stands alone if it is the only one. -/
theorem tokens_eq_spelled (word : Bool → α → List Token) (f : Formula α) :
    f.tokens word true = spelled (word (f.tests.length = 1)) f.symbols := by
  have hlength : ∀ l r : Formula α, ¬ (l.tests ++ r.tests).length = 1 := by
    intro l r h
    have hl := List.length_pos_iff.mpr (tests_ne_nil l)
    have hr := List.length_pos_iff.mpr (tests_ne_nil r)
    rw [List.length_append] at h
    omega
  cases f with
  | test t => exact (List.append_nil _).symm
  | and l r =>
      rw [show (and l r).tests = l.tests ++ r.tests from rfl, decide_eq_false (hlength l r)]
      exact tokens_false word (.and l r)
  | or l r =>
      rw [show (or l r).tests = l.tests ++ r.tests from rfl, decide_eq_false (hlength l r)]
      exact tokens_false word (.or l r)

end Formula

/-! ## The reader -/

/-- What was read since a parenthesis was opened: the alternatives before the last OR, and the
factors of the one that is being read. -/
structure Pending (α : Type) where
  alternatives : Option (Formula α)
  factors : Option (Formula α)

namespace Pending

/-- Nothing was read yet. -/
def empty : Pending α := ⟨none, none⟩

/-- One more factor. -/
def times (p : Pending α) (f : Formula α) : Pending α :=
  { p with factors := Formula.join .and p.factors (some f) }

/-- All that was read. -/
def total (p : Pending α) : Option (Formula α) := Formula.join .or p.alternatives p.factors

/-- What was read becomes an alternative. -/
def turn (p : Pending α) : Pending α := ⟨p.total, none⟩

end Pending

mutual

/-- Reads on where a test or a parenthesis must stand. -/
def readOperand (p : Pending α) (outer : List (Pending α)) :
    List (Symbol α) → Option (Formula α)
  | .test t :: rest => readConnective (p.times (.test t)) outer rest
  | .opening :: rest => readOperand .empty (p :: outer) rest
  | _ => none

/-- Reads on behind a test or a closed parenthesis. -/
def readConnective (p : Pending α) (outer : List (Pending α)) :
    List (Symbol α) → Option (Formula α)
  | [] => if outer.isEmpty then p.total else none
  | .and :: rest => readOperand p outer rest
  | .or :: rest => readOperand p.turn outer rest
  | .closing :: rest =>
    match outer, p.total with
    | o :: outer, some f => readConnective (o.times f) outer rest
    | _, _ => none
  | _ => none

end

/-- The formula that symbols write, AND binding tighter than OR. -/
def read (ss : List (Symbol α)) : Option (Formula α) := readOperand .empty [] ss

/-! ## Formulas that are read alike -/

namespace Formula

/-- The same tests in the same order, and the same said by them. -/
structure Alike (f g : Option (Formula α)) : Prop where
  tests : testsOf f = testsOf g
  value : ∀ v n, value? v n f = value? v n g

namespace Alike

variable {e f g : Option (Formula α)}

theorem refl (f : Option (Formula α)) : Alike f f := ⟨rfl, fun _ _ => rfl⟩

theorem trans (h : Alike e f) (h' : Alike f g) : Alike e g :=
  ⟨h.tests.trans h'.tests, fun v n => (h.value v n).trans (h'.value v n)⟩

/-- Joining looks at nothing but tests and values. -/
theorem join {e' f' : Option (Formula α)} (logic : Logic) (h : Alike e e') (h' : Alike f f') :
    Alike (join logic e f) (Formula.join logic e' f') := by
  refine ⟨?_, fun v n => ?_⟩
  · rw [testsOf_join, testsOf_join, h.tests, h'.tests]
  · rw [value?_join, value?_join, h.value, h.tests, h'.value]

/-- Joining twice by one connective, in either order. -/
theorem join_assoc (logic : Logic) (e f g : Option (Formula α)) :
    Alike (Formula.join logic (Formula.join logic e f) g)
      (Formula.join logic e (Formula.join logic f g)) := by
  refine ⟨?_, fun v n => ?_⟩
  · rw [testsOf_join, testsOf_join, testsOf_join, testsOf_join, List.append_assoc]
  · -- what is absent joins nothing, so only three formulas need the laws of truth values
    cases e with
    | none => cases f <;> cases g <;> cases logic <;> rfl
    | some e =>
        cases f with
        | none => cases g <;> cases logic <;> rfl
        | some f =>
            cases g with
            | none => cases logic <;> rfl
            | some g =>
                cases logic with
                | and =>
                    show some (Formula.value v n ((e.and f).and g)) =
                      some (Formula.value v n (e.and (f.and g)))
                    simp only [Formula.value, Formula.tests, List.length_append, Truth.and_assoc,
                      Nat.add_assoc]
                | or =>
                    show some (Formula.value v n ((e.or f).or g)) =
                      some (Formula.value v n (e.or (f.or g)))
                    simp only [Formula.value, Formula.tests, List.length_append, Truth.or_assoc,
                      Nat.add_assoc]

end Alike

/-! ## Reading what was written -/

/-- What the reader makes of the symbols of a formula, wherever they stand. -/
structure Readable (f : Formula α) : Prop where
  /-- As an operand of AND it is one more factor. -/
  asFactor : ∀ (p : Pending α) (outer : List (Pending α)) (rest : List (Symbol α)), ∃ g,
    readOperand p outer (f.factor f.symbols ++ rest)
        = readConnective ⟨p.alternatives, some g⟩ outer rest ∧
      Alike (some g) (Formula.join .and p.factors (some f))
  /-- Where an alternative begins it is one more alternative, or several. -/
  asAlternative : ∀ (s : Option (Formula α)) (outer : List (Pending α))
      (rest : List (Symbol α)), ∃ p,
    readOperand ⟨s, none⟩ outer (f.symbols ++ rest) = readConnective p outer rest ∧
      Alike p.total (Formula.join .or s (some f))

/-- A formula that needs no parentheses as a factor begins an alternative like one. -/
theorem alternative_of_factor {f : Formula α} (hf : f.factor f.symbols = f.symbols)
    (h : ∀ (p : Pending α) (outer : List (Pending α)) (rest : List (Symbol α)), ∃ g,
      readOperand p outer (f.factor f.symbols ++ rest)
          = readConnective ⟨p.alternatives, some g⟩ outer rest ∧
        Alike (some g) (Formula.join .and p.factors (some f))) : Readable f := by
  refine ⟨h, fun s outer rest => ?_⟩
  obtain ⟨g, hread, hg⟩ := h ⟨s, none⟩ outer rest
  rw [hf] at hread
  exact ⟨⟨s, some g⟩, hread, (Alike.refl s).join .or hg⟩

/-- Joined to a formula, anything is a formula. -/
theorem join_some (logic : Logic) (e : Option (Formula α)) (f : Formula α) :
    ∃ g, Formula.join logic e (some f) = some g := by
  cases e with
  | none => exact ⟨f, rfl⟩
  | some e => cases logic <;> exact ⟨_, rfl⟩

/-- A test is read as itself. -/
theorem readable_test (t : α) : Readable (.test t) := by
  refine alternative_of_factor rfl fun p outer rest => ?_
  obtain ⟨g, hg⟩ := join_some .and p.factors (.test t)
  refine ⟨g, ?_, hg ▸ Alike.refl _⟩
  show readConnective (p.times (.test t)) outer rest = _
  rw [Pending.times, hg]

/-- A conjunction of readable formulas is readable. -/
theorem readable_and {l r : Formula α} (hl : Readable l) (hr : Readable r) :
    Readable (.and l r) := by
  refine alternative_of_factor rfl fun p outer rest => ?_
  obtain ⟨g, hread, hg⟩ := hl.asFactor p outer ([.and] ++ r.factor r.symbols ++ rest)
  obtain ⟨g', hread', hg'⟩ := hr.asFactor ⟨p.alternatives, some g⟩ outer rest
  refine ⟨g', ?_, ?_⟩
  · show readOperand p outer (l.factor l.symbols ++ [.and] ++ r.factor r.symbols ++ rest) = _
    rw [List.append_assoc, List.append_assoc, ← List.append_assoc [Symbol.and], hread]
    exact hread'
  · -- the reader has one chain of factors where the formula has a factor of two
    have hjoin := (hg.join .and (Alike.refl (some r))).trans
      (Alike.join_assoc .and p.factors (some l) (some r))
    exact hg'.trans hjoin

/-- A disjunction of readable formulas is readable. -/
theorem readable_or {l r : Formula α} (hl : Readable l) (hr : Readable r) :
    Readable (.or l r) := by
  have halternative : ∀ (s : Option (Formula α)) (outer : List (Pending α))
      (rest : List (Symbol α)), ∃ p,
      readOperand ⟨s, none⟩ outer ((or l r).symbols ++ rest) = readConnective p outer rest ∧
        Alike p.total (Formula.join .or s (some (.or l r))) := by
    intro s outer rest
    obtain ⟨p, hread, hp⟩ := hl.asAlternative s outer ([.or] ++ r.symbols ++ rest)
    obtain ⟨p', hread', hp'⟩ := hr.asAlternative p.total outer rest
    refine ⟨p', ?_, ?_⟩
    · show readOperand ⟨s, none⟩ outer (l.symbols ++ [.or] ++ r.symbols ++ rest) = _
      rw [List.append_assoc, List.append_assoc, ← List.append_assoc [Symbol.or], hread]
      exact hread'
    · exact hp'.trans ((hp.join .or (Alike.refl (some r))).trans
        (Alike.join_assoc .or s (some l) (some r)))
  refine ⟨fun p outer rest => ?_, halternative⟩
  -- the parentheses keep what was read before them apart
  obtain ⟨q, hread, hq⟩ := halternative none (p :: outer) ([.closing] ++ rest)
  -- what they enclose has tests, so there is something to close
  obtain ⟨total, htotal⟩ : ∃ total, q.total = some total := by
    cases htotal : q.total with
    | some total => exact ⟨total, rfl⟩
    | none =>
        have htests := hq.tests
        rw [htotal] at htests
        exact absurd htests.symm (tests_ne_nil (or l r))
  obtain ⟨g, hg⟩ := join_some .and p.factors total
  refine ⟨g, ?_, ?_⟩
  · show readOperand .empty (p :: outer) (((or l r).symbols ++ [.closing]) ++ rest) = _
    rw [List.append_assoc]
    refine hread.trans ?_
    show (match p :: outer, q.total with
      | o :: outer, some f => readConnective (o.times f) outer rest
      | _, _ => none) = _
    rw [htotal]
    show readConnective (p.times total) outer rest = _
    rw [Pending.times, hg]
  · rw [← hg]
    rw [htotal] at hq
    exact (Alike.refl p.factors).join .and hq

/-- **EVERY FORMULA IS READABLE**: its symbols are read as what it says. -/
theorem readable (f : Formula α) : Readable f := by
  induction f with
  | test t => exact readable_test t
  | and l r ihl ihr => exact readable_and ihl ihr
  | or l r ihl ihr => exact readable_or ihl ihr

/-- Reading the symbols of a formula gives one that has the same tests and says the same. -/
theorem read_symbols (f : Formula α) :
    ∃ g, read f.symbols = some g ∧ g.tests = f.tests ∧ ∀ v n, g.value v n = f.value v n := by
  obtain ⟨p, hread, hp⟩ := (readable f).asAlternative none [] []
  rw [List.append_nil] at hread
  cases htotal : p.total with
  | none =>
      have htests := hp.tests
      rw [htotal] at htests
      exact absurd htests.symm (tests_ne_nil f)
  | some g =>
      rw [htotal] at hp
      refine ⟨g, ?_, hp.tests, fun v n => Option.some.inj (hp.value v n)⟩
      show readOperand ⟨none, none⟩ [] f.symbols = some g
      rw [hread]
      exact htotal

/-! ## Tests are opaque -/

end Formula

/-- The same reading of other tests. -/
def Pending.map (f : α → β) (p : Pending α) : Pending β :=
  ⟨p.alternatives.map (Formula.map f), p.factors.map (Formula.map f)⟩

namespace Formula

/-- Formulas are joined in the same way whatever their tests are. -/
theorem join_map (f : α → β) (logic : Logic) (e g : Option (Formula α)) :
    Formula.join logic (e.map (map f)) (g.map (map f)) = (Formula.join logic e g).map (map f) := by
  cases e with
  | none => cases g <;> rfl
  | some e =>
      cases g with
      | none => rfl
      | some g => cases logic <;> rfl

theorem times_map (f : α → β) (p : Pending α) (g : Formula α) :
    (p.map f).times (g.map f) = (p.times g).map f := by
  show Pending.mk _ (Formula.join .and (p.factors.map (map f)) ((some g).map (map f))) = _
  rw [join_map]
  rfl

theorem total_map (f : α → β) (p : Pending α) : (p.map f).total = p.total.map (map f) :=
  join_map f .or p.alternatives p.factors

theorem turn_map (f : α → β) (p : Pending α) : (p.map f).turn = p.turn.map f := by
  rw [Pending.turn, total_map]
  rfl

mutual

/-- Symbols are read in the same way whatever their tests are. -/
theorem readOperand_map (f : α → β) (p : Pending α) (outer : List (Pending α))
    (ss : List (Symbol α)) :
    readOperand (p.map f) (outer.map (Pending.map f)) (ss.map (Symbol.map f)) =
      (readOperand p outer ss).map (map f) := by
  cases ss with
  | nil => rfl
  | cons s rest =>
      cases s with
      | test t =>
          show readConnective ((p.map f).times ((test t).map f)) _ _ = _
          rw [times_map]
          exact readConnective_map f (p.times (.test t)) outer rest
      | opening => exact readOperand_map f .empty (p :: outer) rest
      | and => rfl
      | or => rfl
      | closing => rfl

/-- Behind an operand, symbols are read in the same way whatever their tests are. -/
theorem readConnective_map (f : α → β) (p : Pending α) (outer : List (Pending α))
    (ss : List (Symbol α)) :
    readConnective (p.map f) (outer.map (Pending.map f)) (ss.map (Symbol.map f)) =
      (readConnective p outer ss).map (map f) := by
  cases ss with
  | nil =>
      cases outer with
      | nil => exact total_map f p
      | cons o outer => rfl
  | cons s rest =>
      cases s with
      | test t => rfl
      | opening => rfl
      | and => exact readOperand_map f p outer rest
      | or =>
          show readOperand (p.map f).turn _ _ = _
          rw [turn_map]
          exact readOperand_map f p.turn outer rest
      | closing =>
          -- whether something stands in the parentheses is seen without a look at the tests
          cases outer with
          | nil => rfl
          | cons o outer =>
              show (match o.map f :: outer.map (Pending.map f), (p.map f).total with
                | o :: outer, some g => readConnective (o.times g) outer (rest.map (Symbol.map f))
                | _, _ => none) = (match o :: outer, p.total with
                | o :: outer, some g => readConnective (o.times g) outer rest
                | _, _ => none).map (map f)
              rw [total_map]
              cases p.total with
              | none => rfl
              | some g =>
                  show readConnective ((o.map f).times (g.map f)) _ _ = _
                  rw [times_map]
                  exact readConnective_map f (o.times g) outer rest

end

/-- The reader looks at no test: put others in their places, and it reads the same formula of
them. -/
theorem read_map (f : α → β) (ss : List (Symbol α)) :
    read (ss.map (Symbol.map f)) = (read ss).map (map f) :=
  readOperand_map f .empty [] ss

end Formula

end ModelQuery.Sql
