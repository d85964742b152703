import Bundler.Expr.Print
import Bundler.Proofs.Decimal.Shortest
import Bundler.Proofs.Expr.Parts
import Bundler.Proofs.Reading.Grammar
import Bundler.Proofs.Text.Identifiers

/-! # Printed expressions read back

The text of an expression is read as the expression, whatever follows that an expression can be followed by,
unless a property is read from a number that is written without a point.  A reader that leaves such a point to
the property reads the text of every expression.
-/

namespace Bundler.Reading

open Decimal Bundler.Expr

/-! ## Expressions that can be read -/

/-- What a node needs to be read: its names are words, a name by itself is not reserved, a number is finite
    and not negative, and only what can be assigned to is assigned to. -/
def Fine (alphabet : Alphabet) : Expr Unit → Prop
  | .ident _ name => alphabet.IsWord name ∧ Identifier.isReserved name = false
  | .literal _ (.number bits) => ∃ mantissa exponent, Binary64.ofBits bits = .finite false mantissa exponent
  | .member _ _ key => alphabet.IsWord key
  | .assign _ target _ => target.isTarget = true
  | _ => True

/-- All nodes of the expression can be read. -/
def Readable (alphabet : Alphabet) (e : Expr Unit) : Prop := ∀ p ∈ e.parts, Fine alphabet p

/-- The number is written with a point. -/
def Pointed (bits : UInt64) : Prop := '.' ∈ (Literal.print (.number bits)).toList

instance (bits : UInt64) : Decidable (Pointed bits) :=
  inferInstanceAs (Decidable ('.' ∈ (Literal.print (.number bits)).toList))

/-- The node does not read a property from a number that is written without a point. -/
def Apart : Expr Unit → Prop
  | .member _ (.literal _ (.number bits)) _ => Pointed bits
  | _ => True

/-- No node of the expression reads a property from a number that is written without a point. -/
def PointsApart (e : Expr Unit) : Prop := ∀ p ∈ e.parts, Apart p

/-! ## Plain names -/

/-- Plain identifiers are words of every alphabet. -/
theorem isWord_of_isPlain {alphabet : Alphabet} {name : String} (plain : Identifier.isPlain name = true) :
    alphabet.IsWord name := by
  obtain ⟨first, parts, chars, start, all⟩ := Identifier.isPlain_iff.mp plain
  refine ⟨first, parts, chars, ?_, fun c mem => ?_⟩
  · rw [alphabet.isStart_ascii first (Identifier.ascii_of_isPart (Identifier.isPart_of_isStart start)), start]
  · rw [alphabet.isPart_ascii c (Identifier.ascii_of_isPart (all c mem)), all c mem]

theorem isPart_of_isSpace {c : Char} (space : isSpace c = true) : Identifier.isPart c = false := by
  by_contra part
  rw [Bool.not_eq_false] at part
  have small : ∀ n < 128, isSpace (Char.ofNat n) = true → Identifier.isPart (Char.ofNat n) = false := by decide
  have none := small c.toNat (Identifier.ascii_of_isPart part)
  rw [Char.ofNat_toNat, part] at none
  cases none space

/-- The alphabet of plain identifiers. -/
def Alphabet.plain : Alphabet where
  isStart := Identifier.isStart
  isPart := Identifier.isPart
  isStart_ascii _ _ := rfl
  isPart_ascii _ _ := rfl
  isPart_of_isStart _ := Identifier.isPart_of_isStart
  isPart_space _ := isPart_of_isSpace

/-! ## Tokens of printed expressions -/

variable {alphabet : Alphabet} {greedy : Bool} {e : Expr Unit}

/-- The text can stand behind the expression without becoming part of it. -/
def Follows (greedy : Bool) (e : Expr Unit) (rest : List Char) : Prop :=
  Stops rest ∧ (rest.head? = some '.' → match e with
    | .assign _ _ _ => False
    | .literal _ (.number bits) => Pointed bits ∨ greedy = false ∧ rest.tail.head?.any Char.isDigit = false
    | _ => True)

/-- An assignment is an expression, all else is an operand. -/
def phraseOf (e : Expr Unit) : Phrase := if e.isAssign then .whole e else .operand e

/-- The text of an expression is read as tokens that make up the expression, whatever follows. -/
def Spelled (alphabet : Alphabet) (greedy : Bool) (e : Expr Unit) : Prop :=
  ∃ tokens, Derives (phraseOf e) tokens ∧ ∀ rest left, Follows greedy e rest →
    Lexes alphabet greedy rest left → Lexes alphabet greedy (e.print.toList ++ rest) (tokens ++ left)

theorem derives_whole {tokens : List Token} (derives : Derives (phraseOf e) tokens) :
    Derives (.whole e) tokens := by
  rw [phraseOf] at derives
  split at derives
  next => exact derives
  next => exact .whole derives

theorem lexes_mark {c : Char} {rest : List Char} {left : List Token} (mark : c ∈ marks) (point : c ≠ '.')
    (equals : c ≠ '=') (lexes : Lexes alphabet greedy rest left) :
    Lexes alphabet greedy (c :: rest) (.mark c :: left) :=
  .token (scan?_mark mark (fun same => absurd same point) (fun same => absurd same equals)) lexes

theorem lexes_space {rest : List Char} {tokens : List Token} (lexes : Lexes alphabet greedy rest tokens) :
    Lexes alphabet greedy (' ' :: rest) tokens := .space (by decide) lexes

theorem follows_closer {c : Char} (closer : c ∈ closers) (point : c ≠ '.') (rest : List Char) :
    Follows greedy e (c :: rest) := by
  refine ⟨fun d mem => ?_, fun same => absurd (Option.some.inj same) point⟩
  cases mem
  exact closer

/-! ### Literals -/

theorem scan?_plain {text : String} (plain : Identifier.isPlain text = true) {rest : List Char}
    (stops : Stops rest) : scan? alphabet greedy (text.toList ++ rest) = some (.word text, rest) :=
  scan?_word (isWord_of_isPlain plain) stops

/-- A number that is written without a fraction is written without a point. -/
theorem fraction_ne_nil {bits : UInt64} {whole fraction : List Char} (before : IsWhole whole)
    (written : (Literal.print (.number bits)).toList = whole ++ pointed fraction) (point : Pointed bits) :
    fraction ≠ [] := by
  rintro rfl
  rw [Pointed, written, pointed, List.append_nil] at point
  exact absurd (before.2.1 '.' point) (by decide)

/-- The text of an expression is one token that makes up the expression. -/
def OneToken (alphabet : Alphabet) (greedy : Bool) (e : Expr Unit) : Prop :=
  ∃ token, Derives (.operand e) [token] ∧
    ∀ rest, Follows greedy e rest → scan? alphabet greedy (e.print.toList ++ rest) = some (token, rest)

/-- A finite number that is not negative is written as digits, which are read as the number. -/
theorem exists_digits {bits : UInt64}
    (finite : ∃ mantissa exponent, Binary64.ofBits bits = .finite false mantissa exponent) :
    ∃ whole fraction, (Literal.print (.number bits)).toList = whole ++ pointed fraction ∧ IsWhole whole ∧
      (∀ c ∈ fraction, c.isDigit = true) ∧ Binary64.RoundsTo (decimalValue whole fraction) bits := by
  obtain ⟨n, places, written, rounds⟩ := Binary64.exists_print_roundsTo (Binary64.lt_infinityBits_iff.mpr finite)
  obtain ⟨whole, fraction, chars, before, digits, value⟩ := positional_eq n places
  refine ⟨whole, fraction, ?_, before, digits, value ▸ rounds⟩
  rw [Literal.print, written, chars]

theorem oneToken_number {bits : UInt64}
    (finite : ∃ mantissa exponent, Binary64.ofBits bits = .finite false mantissa exponent) :
    OneToken alphabet greedy (.literal () (.number bits)) := by
  obtain ⟨whole, fraction, text, before, digits, rounds⟩ := exists_digits finite
  refine ⟨_, .number rounds, fun rest follows => ?_⟩
  have leaves : LeavesPoint greedy fraction rest := fun point =>
    (follows.2 point).imp (fraction_ne_nil before text) id
  rw [print, text]
  exact scan?_numeral before digits follows.1 leaves

theorem oneToken_literal {value : Literal} (fine : Fine alphabet (.literal () value)) :
    OneToken alphabet greedy (.literal () value) := by
  cases value with
  | string value => exact ⟨.string value, .string, fun rest _ => scan?_string value⟩
  | number bits => exact oneToken_number fine
  | boolean value =>
      cases value with
      | true => exact ⟨.word "true", .word rfl, fun rest follows => scan?_plain (by decide) follows.1⟩
      | false => exact ⟨.word "false", .word rfl, fun rest follows => scan?_plain (by decide) follows.1⟩
  | null => exact ⟨.word "null", .word rfl, fun rest follows => scan?_plain (by decide) follows.1⟩

theorem oneToken_name {name : String} (fine : Fine alphabet (.ident () name)) :
    OneToken alphabet greedy (.ident () name) :=
  ⟨.word name, .name fine.2, fun _ follows => scan?_word fine.1 follows.1⟩

theorem OneToken.spelled (operand : e.isAssign = false) (one : OneToken alphabet greedy e) :
    Spelled alphabet greedy e := by
  obtain ⟨token, derives, read⟩ := one
  refine ⟨[token], ?_, fun rest left follows behind => .token (read rest follows) behind⟩
  rwa [phraseOf, if_neg (by rw [operand]; exact Bool.false_ne_true)]

/-! ### Texts and what follows -/

section Texts

variable (rest : List Char)

theorem enclose_append (assigns : e.isAssign = true) :
    (enclose e.isAssign e.print).toList ++ rest = '(' :: (e.print.toList ++ ')' :: rest) := by
  rw [assigns, enclose, if_pos rfl]
  simp

theorem printAll_append (e next : Expr Unit) (later : List (Expr Unit)) :
    (printAll (e :: next :: later)).toList ++ rest =
      e.print.toList ++ ',' :: ' ' :: ((printAll (next :: later)).toList ++ rest) := by
  rw [printAll]
  simp

theorem member_append (object : Expr Unit) (key : String) :
    (print (.member () object key)).toList ++ rest =
      (enclose object.isAssign object.print).toList ++ '.' :: (key.toList ++ rest) := by
  rw [print]
  simp

theorem index_append (object key : Expr Unit) :
    (print (.index () object key)).toList ++ rest =
      (enclose object.isAssign object.print).toList ++ '[' :: (key.print.toList ++ ']' :: rest) := by
  rw [print]
  simp

theorem call_append (callee : Expr Unit) (arguments : List (Expr Unit)) :
    (print (.call () callee arguments)).toList ++ rest =
      (enclose callee.isAssign callee.print).toList ++ '(' :: ((printAll arguments).toList ++ ')' :: rest) := by
  rw [print]
  simp

theorem assign_append (target value : Expr Unit) :
    (print (.assign () target value)).toList ++ rest =
      target.print.toList ++ ' ' :: '=' :: ' ' :: (value.print.toList ++ rest) := by
  rw [print]
  simp

end Texts

/-! ### Operands and arguments -/

/-- The text of an operand is read as tokens that make up the operand.  In parentheses anything may follow. -/
def SpelledOperand (alphabet : Alphabet) (greedy : Bool) (e : Expr Unit) : Prop :=
  ∃ tokens, Derives (.operand e) tokens ∧ ∀ rest left, (e.isAssign = false → Follows greedy e rest) →
    Lexes alphabet greedy rest left →
    Lexes alphabet greedy ((enclose e.isAssign e.print).toList ++ rest) (tokens ++ left)

/-- The texts of arguments are read as tokens that make up the arguments, before a closing parenthesis. -/
def SpelledList (alphabet : Alphabet) (greedy : Bool) (es : List (Expr Unit)) : Prop :=
  ∃ tokens, Derives (.list es) tokens ∧ ∀ rest left, Lexes alphabet greedy (')' :: rest) left →
    Lexes alphabet greedy ((printAll es).toList ++ ')' :: rest) (tokens ++ left)

theorem Spelled.operand (spelled : Spelled alphabet greedy e) : SpelledOperand alphabet greedy e := by
  obtain ⟨tokens, derives, lexes⟩ := spelled
  rw [phraseOf] at derives
  by_cases assigns : e.isAssign = true
  · rw [if_pos assigns] at derives
    refine ⟨_, .group derives, fun rest left _ behind => ?_⟩
    have inner := lexes (')' :: rest) (.mark ')' :: left) (follows_closer (by decide) (by decide) rest)
      (lexes_mark (by decide) (by decide) (by decide) behind)
    have outer := lexes_mark (c := '(') (by decide) (by decide) (by decide) inner
    rw [enclose_append _ assigns]
    simpa using outer
  · rw [if_neg assigns] at derives
    refine ⟨tokens, derives, fun rest left follows behind => ?_⟩
    rw [Bool.not_eq_true] at assigns
    rw [assigns, enclose, if_neg Bool.false_ne_true]
    exact lexes rest left (follows assigns) behind

theorem spelledList {es : List (Expr Unit)} (spelled : ∀ e ∈ es, Spelled alphabet greedy e) :
    SpelledList alphabet greedy es := by
  induction es with
  | nil => exact ⟨[], .none, fun rest left behind => behind⟩
  | cons e later ih =>
      obtain ⟨tokens, derives, lexes⟩ := spelled e List.mem_cons_self
      cases later with
      | nil =>
          refine ⟨tokens, .single (derives_whole derives), fun rest left behind => ?_⟩
          exact lexes _ _ (follows_closer (by decide) (by decide) rest) behind
      | cons next later =>
          obtain ⟨tokens', derives', lexes'⟩ := ih fun e mem => spelled e (List.mem_cons_of_mem _ mem)
          refine ⟨_, .more (derives_whole derives) derives', fun rest left behind => ?_⟩
          have after := lexes_mark (c := ',') (by decide) (by decide) (by decide)
            (lexes_space (lexes' rest left behind))
          have whole := lexes _ _ (follows_closer (by decide) (by decide) _) after
          rw [printAll_append, List.append_assoc]
          exact whole

/-! ### Expressions -/

theorem isDigit_word {name : String} (word : alphabet.IsWord name) (rest : List Char) :
    (name.toList ++ rest).head?.any Char.isDigit = false := by
  obtain ⟨first, parts, chars, start, -⟩ := word
  rw [chars, List.cons_append, List.head?_cons, Option.any_some]
  by_contra digit
  rw [Bool.not_eq_false] at digit
  rw [isStart_digit digit] at start
  cases start

theorem scan?_point {name : String} (word : alphabet.IsWord name) (rest : List Char) :
    scan? alphabet greedy ('.' :: (name.toList ++ rest)) = some (.mark '.', name.toList ++ rest) :=
  scan?_mark (by decide) (fun _ => isDigit_word word rest) fun same => absurd same (by decide)

theorem scan?_equals (rest : List Char) :
    scan? alphabet greedy ('=' :: ' ' :: rest) = some (.mark '=', ' ' :: rest) :=
  scan?_mark (by decide) (fun same => absurd same (by decide)) fun _ => rfl

theorem follows_point {object : Expr Unit} {key : String} (word : alphabet.IsWord key)
    (apart : greedy = true → Apart (.member () object key)) (operand : object.isAssign = false)
    (rest : List Char) : Follows greedy object ('.' :: (key.toList ++ rest)) := by
  refine ⟨fun c mem => ?_, fun _ => ?_⟩
  · cases mem
    decide
  · split
    next => cases operand
    next bits =>
        cases greedy with
        | true => exact .inl (apart rfl)
        | false => exact .inr ⟨rfl, isDigit_word word rest⟩
    next => trivial

theorem spelled_member {object : Expr Unit} {key : String} (word : alphabet.IsWord key)
    (apart : greedy = true → Apart (.member () object key)) (inner : Spelled alphabet greedy object) :
    Spelled alphabet greedy (.member () object key) := by
  obtain ⟨tokens, derives, lexes⟩ := inner.operand
  refine ⟨_, .member derives, fun rest left follows behind => ?_⟩
  have name : Lexes alphabet greedy (key.toList ++ rest) (.word key :: left) :=
    .token (scan?_word word follows.1) behind
  have whole := lexes _ _ (fun operand => follows_point word apart operand rest)
    (.token (scan?_point word rest) name)
  rw [member_append, List.append_assoc]
  exact whole

theorem spelled_index {object key : Expr Unit} (inner : Spelled alphabet greedy object)
    (within : Spelled alphabet greedy key) : Spelled alphabet greedy (.index () object key) := by
  obtain ⟨tokens, derives, lexes⟩ := inner.operand
  obtain ⟨tokens', derives', lexes'⟩ := within
  refine ⟨_, .index derives (derives_whole derives'), fun rest left _ behind => ?_⟩
  have close := lexes_mark (c := ']') (by decide) (by decide) (by decide) behind
  have middle := lexes' _ _ (follows_closer (by decide) (by decide) _) close
  have open' := lexes_mark (c := '[') (by decide) (by decide) (by decide) middle
  have whole := lexes _ _ (fun _ => follows_closer (by decide) (by decide) _) open'
  rw [index_append]
  simpa using whole

theorem spelled_call {callee : Expr Unit} {arguments : List (Expr Unit)}
    (inner : Spelled alphabet greedy callee) (within : ∀ e ∈ arguments, Spelled alphabet greedy e) :
    Spelled alphabet greedy (.call () callee arguments) := by
  obtain ⟨tokens, derives, lexes⟩ := inner.operand
  obtain ⟨tokens', derives', lexes'⟩ := spelledList within
  refine ⟨_, .call derives derives', fun rest left _ behind => ?_⟩
  have close := lexes_mark (c := ')') (by decide) (by decide) (by decide) behind
  have open' := lexes_mark (c := '(') (by decide) (by decide) (by decide) (lexes' _ _ close)
  have whole := lexes _ _ (fun _ => follows_closer (by decide) (by decide) _) open'
  rw [call_append]
  simpa using whole

theorem spelled_assign {target value : Expr Unit} (settable : target.isTarget = true)
    (left : Spelled alphabet greedy target) (right : Spelled alphabet greedy value) :
    Spelled alphabet greedy (.assign () target value) := by
  have operand : target.isAssign = false := by
    cases target <;> first | rfl | cases settable
  obtain ⟨tokens, derives, lexes⟩ := left.operand
  obtain ⟨tokens', derives', lexes'⟩ := right
  refine ⟨_, .assign derives settable (derives_whole derives'), fun rest behind follows after => ?_⟩
  have free : rest.head? ≠ some '.' := fun point => follows.2 point
  have second := lexes' rest behind ⟨follows.1, fun point => absurd point free⟩ after
  have equals : Lexes alphabet greedy ('=' :: ' ' :: (value.print.toList ++ rest))
      (.mark '=' :: (tokens' ++ behind)) := .token (scan?_equals _) (lexes_space second)
  have whole := lexes _ _ (fun _ => follows_closer (by decide) (by decide) _) (lexes_space equals)
  rw [operand, enclose, if_neg Bool.false_ne_true] at whole
  rw [assign_append]
  simpa using whole

/-- Every expression that can be read is spelled by its text. -/
theorem spelled_of_readable (readable : Readable alphabet e) (apart : greedy = true → PointsApart e) :
    Spelled alphabet greedy e := by
  induction e using children_induction with
  | step e ih =>
      have below : ∀ c ∈ e.children, Spelled alphabet greedy c := fun c child =>
        ih c child (forall_parts_of_child readable child) fun all => forall_parts_of_child (apart all) child
      have here : Fine alphabet e := readable e (mem_parts_self e)
      cases e with
      | ident tag name => exact (oneToken_name here).spelled rfl
      | literal tag value => exact (oneToken_literal here).spelled rfl
      | member tag object key =>
          exact spelled_member here (fun all => apart all _ (mem_parts_self _)) (below object List.mem_cons_self)
      | index tag object key =>
          exact spelled_index (below object List.mem_cons_self)
            (below key (List.mem_cons_of_mem _ List.mem_cons_self))
      | call tag callee arguments =>
          exact spelled_call (below callee List.mem_cons_self) fun e mem => below e (List.mem_cons_of_mem _ mem)
      | assign tag target value =>
          exact spelled_assign here (below target List.mem_cons_self)
            (below value (List.mem_cons_of_mem _ List.mem_cons_self))

theorem follows_nil : Follows greedy e [] := by
  refine ⟨fun c mem => ?_, fun point => ?_⟩
  · cases mem
  · cases point

theorem reads_print (readable : Readable alphabet e) (apart : greedy = true → PointsApart e) :
    Reads alphabet greedy e.print e := by
  obtain ⟨tokens, derives, lexes⟩ := spelled_of_readable readable apart
  have whole := lexes [] [] follows_nil .nil
  rw [List.append_nil, List.append_nil] at whole
  exact ⟨tokens, whole, derives_whole derives⟩

end Bundler.Reading
