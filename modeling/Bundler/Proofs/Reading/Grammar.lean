import Bundler.Expr.Basic
import Bundler.Proofs.Decimal.Rounding
import Bundler.Proofs.Reading.Tokens

/-! # The grammar of expressions

An operand is a name, a literal or an expression in parentheses, followed by any number of properties, keys
and calls.  An assignment has an operand on its left and an expression on its right.  No list of tokens is
an expression in two ways: the tokens can be consumed from the left, and what comes next always says how.
-/

namespace Bundler

/-- Whether the expression can be assigned to. -/
def Expr.isTarget {α : Type} : Expr α → Bool
  | .ident _ _ | .member _ _ _ | .index _ _ _ => true
  | _ => false

namespace Reading

open Decimal

/-- The literal that a word stands for. -/
def literal? (name : String) : Option Literal :=
  if name = "true" then some (.boolean true)
  else if name = "false" then some (.boolean false)
  else if name = "null" then some .null
  else none

/-- What some tokens can be read as. -/
inductive Phrase where
  /-- An expression that binds tighter than assignment. -/
  | operand (e : Expr Unit)
  /-- Any expression. -/
  | whole (e : Expr Unit)
  /-- The arguments of a call. -/
  | list (es : List (Expr Unit))

/-- The tokens make up the phrase. -/
inductive Derives : Phrase → List Token → Prop where
  | name {name} : Identifier.isReserved name = false → Derives (.operand (.ident () name)) [.word name]
  | word {name value} : literal? name = some value → Derives (.operand (.literal () value)) [.word name]
  | string {value} : Derives (.operand (.literal () (.string value))) [.string value]
  | number {value bits} : Binary64.RoundsTo value bits →
    Derives (.operand (.literal () (.number bits))) [.numeral value]
  | group {e tokens} : Derives (.whole e) tokens →
    Derives (.operand e) (.mark '(' :: tokens ++ [.mark ')'])
  | member {object key tokens} : Derives (.operand object) tokens →
    Derives (.operand (.member () object key)) (tokens ++ [.mark '.', .word key])
  | index {object key tokens inner} : Derives (.operand object) tokens → Derives (.whole key) inner →
    Derives (.operand (.index () object key)) (tokens ++ .mark '[' :: inner ++ [.mark ']'])
  | call {callee arguments tokens inner} : Derives (.operand callee) tokens →
    Derives (.list arguments) inner →
    Derives (.operand (.call () callee arguments)) (tokens ++ .mark '(' :: inner ++ [.mark ')'])
  | whole {e tokens} : Derives (.operand e) tokens → Derives (.whole e) tokens
  | assign {target value tokens behind} : Derives (.operand target) tokens → target.isTarget = true →
    Derives (.whole value) behind → Derives (.whole (.assign () target value)) (tokens ++ .mark '=' :: behind)
  | none : Derives (.list []) []
  | single {e tokens} : Derives (.whole e) tokens → Derives (.list [e]) tokens
  | more {e next rest tokens behind} : Derives (.whole e) tokens → Derives (.list (next :: rest)) behind →
    Derives (.list (e :: next :: rest)) (tokens ++ .mark ',' :: behind)

/-- The text is read as the tree. -/
def Reads (alphabet : Alphabet) (greedy : Bool) (text : String) (e : Expr Unit) : Prop :=
  ∃ tokens, Lexes alphabet greedy text.toList tokens ∧ Derives (.whole e) tokens

/-! ## Reading from the left -/

/-- What is looked for next. -/
inductive Stage where
  /-- What an operand starts with. -/
  | first (e : Expr Unit)
  /-- What an operand becomes that has been read so far. -/
  | onward (sofar e : Expr Unit)
  | whole (e : Expr Unit)
  | list (es : List (Expr Unit))

/-- The marks that an operand goes on with. -/
def goesOn : List Token := [.mark '.', .mark '[', .mark '(']

/-- Reading from the left, from the first tokens on the second ones are left. -/
inductive Takes : Stage → List Token → List Token → Prop where
  | name {name rest} : Identifier.isReserved name = false →
    Takes (.first (.ident () name)) (.word name :: rest) rest
  | word {name value rest} : literal? name = some value →
    Takes (.first (.literal () value)) (.word name :: rest) rest
  | string {value rest} : Takes (.first (.literal () (.string value))) (.string value :: rest) rest
  | number {value bits rest} : Binary64.RoundsTo value bits →
    Takes (.first (.literal () (.number bits))) (.numeral value :: rest) rest
  | group {e tokens rest} : Takes (.whole e) tokens (.mark ')' :: rest) →
    Takes (.first e) (.mark '(' :: tokens) rest
  | done {e rest} : (∀ token ∈ rest.head?, token ∉ goesOn) → Takes (.onward e e) rest rest
  | member {sofar e key tokens rest} : Takes (.onward (.member () sofar key) e) tokens rest →
    Takes (.onward sofar e) (.mark '.' :: .word key :: tokens) rest
  | index {sofar e key tokens behind rest} : Takes (.whole key) tokens (.mark ']' :: behind) →
    Takes (.onward (.index () sofar key) e) behind rest →
    Takes (.onward sofar e) (.mark '[' :: tokens) rest
  | call {sofar e arguments tokens behind rest} : Takes (.list arguments) tokens (.mark ')' :: behind) →
    Takes (.onward (.call () sofar arguments) e) behind rest →
    Takes (.onward sofar e) (.mark '(' :: tokens) rest
  | whole {first e tokens behind rest} : Takes (.first first) tokens behind →
    Takes (.onward first e) behind rest → rest.head? ≠ some (.mark '=') → Takes (.whole e) tokens rest
  | assign {first target value tokens behind later rest} : Takes (.first first) tokens behind →
    Takes (.onward first target) behind (.mark '=' :: later) → target.isTarget = true →
    Takes (.whole value) later rest → Takes (.whole (.assign () target value)) tokens rest
  | none {rest} : rest.head? = some (.mark ')') → Takes (.list []) rest rest
  | single {e tokens rest} : Takes (.whole e) tokens rest → rest.head? ≠ some (.mark ',') →
    Takes (.list [e]) tokens rest
  | more {e next later tokens behind rest} : Takes (.whole e) tokens (.mark ',' :: behind) →
    Takes (.list (next :: later)) behind rest → Takes (.list (e :: next :: later)) tokens rest

theorem literal?_reserved {name : String} {value : Literal} (stands : literal? name = some value) :
    Identifier.isReserved name = true := by
  rw [literal?] at stands
  split_ifs at stands with same same same
  next => rw [same]; decide
  next => rw [same]; decide
  next => rw [same]; decide

/-- No expression starts with a closing parenthesis. -/
theorem Takes.not_closed {e : Expr Unit} {tokens rest : List Token} (takes : Takes (.whole e) tokens rest) :
    tokens.head? ≠ some (.mark ')') := by
  have operand {e : Expr Unit} {tokens rest : List Token} (takes : Takes (.first e) tokens rest) :
      tokens.head? ≠ some (.mark ')') := by
    cases takes <;> simp
  cases takes with
  | whole first => exact operand first
  | assign first => exact operand first

/-- Where the tokens are read as the stage says and the rest is left, nothing else can be read. -/
def Settled (stage : Stage) (tokens rest : List Token) : Prop :=
  match stage with
  | .first e => ∀ other left, Takes (.first other) tokens left → e = other ∧ rest = left
  | .onward sofar e => ∀ other left, Takes (.onward sofar other) tokens left → e = other ∧ rest = left
  | .whole e => ∀ other left, Takes (.whole other) tokens left → e = other ∧ rest = left
  | .list es => ∀ other left, Takes (.list other) tokens left → es = other ∧ rest = left

/-- What comes next always says how to go on. -/
theorem Takes.settled {stage : Stage} {tokens rest : List Token} (takes : Takes stage tokens rest) :
    Settled stage tokens rest := by
  induction takes with
  | name free =>
      intro other left again
      cases again with
      | name => exact ⟨rfl, rfl⟩
      | word stands => rw [literal?_reserved stands] at free; cases free
  | word stands =>
      intro other left again
      cases again with
      | name free => rw [literal?_reserved stands] at free; cases free
      | word stands' =>
          rw [stands] at stands'
          cases stands'
          exact ⟨rfl, rfl⟩
  | string =>
      intro other left again
      cases again with
      | string => exact ⟨rfl, rfl⟩
  | number rounds =>
      intro other left again
      cases again with
      | number rounds' => exact ⟨by rw [rounds.unique rounds'], rfl⟩
  | group _ ih =>
      intro other left again
      cases again with
      | group inner =>
          obtain ⟨same, behind⟩ := ih _ _ inner
          injection behind with _ behind
          exact ⟨same, behind⟩
  | done stop =>
      intro other left again
      cases again with
      | done => exact ⟨rfl, rfl⟩
      | member => exact absurd (List.mem_cons_self) (stop _ rfl)
      | index => exact absurd (by decide) (stop _ rfl)
      | call => exact absurd (by decide) (stop _ rfl)
  | member _ ih =>
      intro other left again
      cases again with
      | done stop => exact absurd (by decide) (stop _ rfl)
      | member later => exact ih _ _ later
  | index _ _ inside ih =>
      intro other left again
      cases again with
      | done stop => exact absurd (by decide) (stop _ rfl)
      | index inner later =>
          obtain ⟨rfl, behind⟩ := inside _ _ inner
          injection behind with _ behind
          subst behind
          exact ih _ _ later
  | call _ _ inside ih =>
      intro other left again
      cases again with
      | done stop => exact absurd (by decide) (stop _ rfl)
      | call inner later =>
          obtain ⟨rfl, behind⟩ := inside _ _ inner
          injection behind with _ behind
          subst behind
          exact ih _ _ later
  | whole _ _ stop start ih =>
      intro other left again
      cases again with
      | whole first onward =>
          obtain ⟨rfl, rfl⟩ := start _ _ first
          exact ih _ _ onward
      | assign first onward =>
          obtain ⟨rfl, rfl⟩ := start _ _ first
          obtain ⟨-, rfl⟩ := ih _ _ onward
          exact absurd rfl stop
  | assign _ _ _ _ start ih later =>
      intro other left again
      cases again with
      | whole first onward stop =>
          obtain ⟨rfl, rfl⟩ := start _ _ first
          obtain ⟨-, rfl⟩ := ih _ _ onward
          exact absurd rfl stop
      | assign first onward _ behind =>
          obtain ⟨rfl, rfl⟩ := start _ _ first
          obtain ⟨rfl, same⟩ := ih _ _ onward
          injection same with _ same
          subst same
          obtain ⟨rfl, rfl⟩ := later _ _ behind
          exact ⟨rfl, rfl⟩
  | none closed =>
      intro other left again
      cases again with
      | none => exact ⟨rfl, rfl⟩
      | single inner => exact absurd closed inner.not_closed
      | more inner => exact absurd closed inner.not_closed
  | single inner stop ih =>
      intro other left again
      cases again with
      | none closed => exact absurd closed inner.not_closed
      | single inner =>
          obtain ⟨rfl, rfl⟩ := ih _ _ inner
          exact ⟨rfl, rfl⟩
      | more inner =>
          obtain ⟨-, rfl⟩ := ih _ _ inner
          exact absurd rfl stop
  | more inner _ ih later =>
      intro other left again
      cases again with
      | none closed => exact absurd closed inner.not_closed
      | single inner stop =>
          obtain ⟨-, rfl⟩ := ih _ _ inner
          exact absurd rfl stop
      | more inner behind =>
          obtain ⟨rfl, same⟩ := ih _ _ inner
          injection same with _ same
          subst same
          obtain ⟨same, rfl⟩ := later _ _ behind
          exact ⟨by rw [same], rfl⟩

/-! ## The grammar is read from the left -/

/-- The marks that an expression does not end before. -/
def keepsOn : List Token := .mark '=' :: goesOn

/-- Whatever is behind a phrase, as far as it can be, the phrase is read from the left and the rest is left. -/
def Read (phrase : Phrase) (tokens : List Token) : Prop :=
  match phrase with
  | .operand sofar => ∀ e behind rest, Takes (.onward sofar e) behind rest →
      ∃ first middle, Takes (.first first) (tokens ++ behind) middle ∧ Takes (.onward first e) middle rest
  | .whole e => ∀ rest, (∀ token ∈ rest.head?, token ∉ keepsOn) → Takes (.whole e) (tokens ++ rest) rest
  | .list es => ∀ rest, Takes (.list es) (tokens ++ .mark ')' :: rest) (.mark ')' :: rest)

theorem closed_not_keepsOn {c : Char} (closes : c = ')' ∨ c = ']' ∨ c = ',') (rest : List Token) :
    ∀ token ∈ (Token.mark c :: rest).head?, token ∉ keepsOn := by
  intro token mem
  cases mem
  rcases closes with rfl | rfl | rfl <;> decide

theorem Derives.read {phrase : Phrase} {tokens : List Token} (derives : Derives phrase tokens) :
    Read phrase tokens := by
  induction derives with
  | name free => exact fun e behind rest onward => ⟨_, _, .name free, onward⟩
  | word stands => exact fun e behind rest onward => ⟨_, _, .word stands, onward⟩
  | string => exact fun e behind rest onward => ⟨_, _, .string, onward⟩
  | number rounds => exact fun e behind rest onward => ⟨_, _, .number rounds, onward⟩
  | @group inner tokens _ ih =>
      intro e behind rest onward
      have taken := ih (.mark ')' :: behind) (closed_not_keepsOn (.inl rfl) behind)
      refine ⟨inner, behind, ?_, onward⟩
      rw [List.append_assoc]
      exact .group taken
  | member _ ih =>
      intro e behind rest onward
      rw [List.append_assoc]
      exact ih _ _ _ (.member onward)
  | @index object key tokens inner _ _ ih inside =>
      intro e behind rest onward
      have taken := inside (.mark ']' :: behind) (closed_not_keepsOn (.inr (.inl rfl)) behind)
      rw [List.append_assoc, List.append_assoc, List.cons_append]
      exact ih _ _ _ (.index taken onward)
  | @call callee arguments tokens inner _ _ ih inside =>
      intro e behind rest onward
      rw [List.append_assoc, List.append_assoc, List.cons_append]
      exact ih _ _ _ (.call (inside behind) onward)
  | whole _ ih =>
      intro rest stop
      have done : ∀ token ∈ rest.head?, token ∉ goesOn :=
        fun token mem onward => stop token mem (List.mem_cons_of_mem _ onward)
      obtain ⟨first, middle, start, onward⟩ := ih _ _ _ (.done done)
      refine .whole start onward fun assigned => ?_
      exact stop _ assigned List.mem_cons_self
  | @assign target value tokens behind _ settable _ ih later =>
      intro rest stop
      have taken := later rest stop
      have done : ∀ token ∈ (Token.mark '=' :: (behind ++ rest)).head?, token ∉ goesOn := by
        intro token mem
        cases mem
        decide
      obtain ⟨first, middle, start, onward⟩ := ih _ _ _ (.done done)
      rw [List.append_assoc, List.cons_append]
      exact .assign start onward settable taken
  | none => exact fun rest => .none rfl
  | single _ ih =>
      intro rest
      exact .single (ih _ (closed_not_keepsOn (.inl rfl) rest)) (by simp)
  | @more e next later tokens behind _ _ ih after =>
      intro rest
      rw [List.append_assoc, List.cons_append]
      exact .more (ih _ (closed_not_keepsOn (.inr (.inr rfl)) _)) (after rest)

/-- No list of tokens is an expression in two ways. -/
theorem Derives.unique {first second : Expr Unit} {tokens : List Token} (derives : Derives (.whole first) tokens)
    (other : Derives (.whole second) tokens) : first = second := by
  have left : Takes (.whole first) (tokens ++ []) [] := derives.read [] (by simp)
  have right : Takes (.whole second) (tokens ++ []) [] := other.read [] (by simp)
  exact (left.settled _ _ right).1

/-- No text is read as two trees. -/
theorem Reads.unique {alphabet : Alphabet} {greedy : Bool} {text : String} {first second : Expr Unit}
    (reads : Reads alphabet greedy text first) (other : Reads alphabet greedy text second) : first = second := by
  obtain ⟨tokens, lexes, derives⟩ := reads
  obtain ⟨tokens', lexes', derives'⟩ := other
  cases lexes.unique lexes'
  exact derives.unique derives'

end Reading

end Bundler
