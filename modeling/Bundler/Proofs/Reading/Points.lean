import Mathlib
import Bundler.Proofs.Reading.Printed

/-! # Points that numbers take

An expression is read back from its text, and only this expression, exactly if no property is read from a
number that is written without a point.  Such a number takes the point of the property, which nothing keeps
apart from it: if the text is read at all, then without the word of the property.  Two expressions are never
written alike.
-/

namespace Bundler.Reading

open Decimal Bundler.Expr

/-! ## Counting words -/

/-- Whether the token is a word. -/
def Token.isWord : Token → Bool
  | .word _ => true
  | _ => false

/-- The number of words among some tokens. -/
def words (tokens : List Token) : Nat := tokens.countP Token.isWord

section Words

variable (left right : List Token)

@[simp]
theorem words_nil : words [] = 0 := rfl

@[simp]
theorem words_append : words (left ++ right) = words left + words right := List.countP_append

@[simp]
theorem words_mark (c : Char) : words (.mark c :: right) = words right :=
  List.countP_cons_of_neg Bool.false_ne_true

@[simp]
theorem words_word (name : String) : words (.word name :: right) = words right + 1 :=
  List.countP_cons_of_pos rfl

end Words

/-- Whether a node is written with a word of its own. -/
def hasWord : Expr Unit → Bool
  | .ident _ _ | .member _ _ _ | .literal _ (.boolean _) | .literal _ .null => true
  | _ => false

/-- The number of words that some expressions are written with. -/
def wordsOf (es : List (Expr Unit)) : Nat := (partsAll es).countP hasWord

theorem wordsOf_cons (e : Expr Unit) (es : List (Expr Unit)) : wordsOf (e :: es) = wordsOf [e] + wordsOf es := by
  simp only [wordsOf, partsAll, List.countP_append, List.countP_nil, Nat.add_zero]

theorem wordsOf_append (es es' : List (Expr Unit)) : wordsOf (es ++ es') = wordsOf es + wordsOf es' := by
  induction es with
  | nil => exact (Nat.zero_add _).symm
  | cons e es ih => rw [List.cons_append, wordsOf_cons, ih, wordsOf_cons e es, Nat.add_assoc]

theorem wordsOf_node (e : Expr Unit) : wordsOf [e] = wordsOf e.children + if hasWord e then 1 else 0 := by
  simp only [wordsOf, partsAll, List.append_nil, parts_eq e, List.countP_append, List.countP_singleton]

/-- The words that a phrase is made up of. -/
def Phrase.words : Phrase → Nat
  | .operand e | .whole e => wordsOf [e]
  | .list es => wordsOf es

theorem hasWord_of_literal? {name : String} {value : Literal} (stands : literal? name = some value) :
    hasWord (.literal () value) = true := by
  rw [literal?] at stands
  split_ifs at stands
  next => cases stands; rfl
  next => cases stands; rfl
  next => cases stands; rfl

/-- Tokens that make up a phrase have its words. -/
theorem Derives.words_eq {phrase : Phrase} {tokens : List Token} (derives : Derives phrase tokens) :
    words tokens = phrase.words := by
  induction derives with
  | name => rfl
  | word stands =>
      rw [Phrase.words, wordsOf_node, hasWord_of_literal? stands]
      rfl
  | string => rfl
  | number => rfl
  | group _ ih => simpa [Phrase.words] using ih
  | member _ ih =>
      simp only [Phrase.words] at ih ⊢
      rw [wordsOf_node (.member ..), children, ← ih]
      simp [hasWord]
  | index _ _ ih inside =>
      simp only [Phrase.words] at ih inside ⊢
      rw [wordsOf_node (.index ..), children, wordsOf_cons, ← ih, ← inside]
      simp [hasWord]
  | call _ _ ih inside =>
      simp only [Phrase.words] at ih inside ⊢
      rw [wordsOf_node (.call ..), children, wordsOf_cons, ← ih, ← inside]
      simp [hasWord]
  | whole _ ih => exact ih
  | assign _ _ _ ih later =>
      simp only [Phrase.words] at ih later ⊢
      rw [wordsOf_node (.assign ..), children, wordsOf_cons, ← ih, ← later]
      simp [hasWord]
  | none => rfl
  | single _ ih => exact ih
  | more _ _ ih later =>
      simp only [Phrase.words] at ih later ⊢
      rw [wordsOf_cons, ← ih, ← later]
      simp

/-- So many words are read of what is written for some expressions.  All of them are only if no number takes
    a point. -/
structure Keeps (es : List (Expr Unit)) (n : Nat) : Prop where
  le : n ≤ wordsOf es
  apart : n = wordsOf es → ∀ e ∈ es, PointsApart e

namespace Keeps

variable {e : Expr Unit} {es es' : List (Expr Unit)} {n m : Nat}

theorem nil : Keeps [] 0 := ⟨Nat.zero_le _, fun _ _ mem => by cases mem⟩

theorem append (first : Keeps es n) (later : Keeps es' m) : Keeps (es ++ es') (n + m) := by
  have whole := wordsOf_append es es'
  have bound := first.le
  have bound' := later.le
  refine ⟨by omega, fun all e mem => ?_⟩
  rcases List.mem_append.mp mem with mem | mem
  · exact first.apart (by omega) e mem
  · exact later.apart (by omega) e mem

theorem node (below : Keeps e.children n) (here : Apart e) : Keeps [e] (n + if hasWord e then 1 else 0) := by
  have whole := wordsOf_node e
  have bound := below.le
  refine ⟨by omega, fun all other mem => ?_⟩
  obtain rfl := List.mem_singleton.mp mem
  intro p part
  rcases mem_parts.mp part with rfl | ⟨c, child, inside⟩
  · exact here
  · exact below.apart (by omega) c child p inside

end Keeps

/-! ## Reading what is printed -/

variable {alphabet : Alphabet} {text rest : List Char} {e : Expr Unit} {es es' : List (Expr Unit)}

/-- Whatever a text is read as, its end is read by itself.  Before it the words of the expressions are read, all
    of them only if no number takes a point. -/
def Passes (alphabet : Alphabet) (text rest : List Char) (es : List (Expr Unit)) : Prop :=
  ∀ tokens, Lexes alphabet true text tokens →
    ∃ taken left, tokens = taken ++ left ∧ Lexes alphabet true rest left ∧ Keeps es (words taken)

namespace Passes

theorem refl : Passes alphabet text text [] := fun tokens lexes => ⟨[], tokens, rfl, lexes, .nil⟩

theorem trans {middle : List Char} (first : Passes alphabet text middle es)
    (later : Passes alphabet middle rest es') : Passes alphabet text rest (es ++ es') := by
  intro tokens lexes
  obtain ⟨taken, left, rfl, lexes', keeps⟩ := first tokens lexes
  obtain ⟨taken', left', rfl, behind, keeps'⟩ := later left lexes'
  refine ⟨taken ++ taken', left', (List.append_assoc ..).symm, behind, ?_⟩
  rw [words_append]
  exact keeps.append keeps'

theorem space (passes : Passes alphabet text rest es) : Passes alphabet (' ' :: text) rest es :=
  fun tokens lexes => passes tokens (lexes.of_space (by decide))

theorem token {c : Char} (first : scan? alphabet true (c :: text) = some (.mark c, text))
    (passes : Passes alphabet text rest es) : Passes alphabet (c :: text) rest es := by
  intro tokens lexes
  obtain ⟨behind, rfl, lexes'⟩ := lexes.of_token first
  obtain ⟨taken, left, rfl, after, keeps⟩ := passes behind lexes'
  refine ⟨.mark c :: taken, left, rfl, after, ?_⟩
  rwa [words_mark]

theorem mark {c : Char} (mark : c ∈ marks) (point : c ≠ '.') (equals : c ≠ '=')
    (passes : Passes alphabet text rest es) : Passes alphabet (c :: text) rest es :=
  passes.token (scan?_mark mark (fun same => absurd same point) (fun same => absurd same equals))

theorem closed {c : Char} (mark : c ∈ marks) (point : c ≠ '.') (equals : c ≠ '=')
    (passes : Passes alphabet text (c :: rest) es) : Passes alphabet text rest es := by
  have whole := passes.trans (refl.mark mark point equals)
  rwa [List.append_nil] at whole

theorem node (wordless : hasWord e = false) (here : Apart e) (passes : Passes alphabet text rest e.children) :
    Passes alphabet text rest [e] := by
  intro tokens lexes
  obtain ⟨taken, left, same, behind, keeps⟩ := passes tokens lexes
  have whole := keeps.node here
  rw [wordless] at whole
  exact ⟨taken, left, same, behind, whole⟩

end Passes

/-- The text of an expression is passed, whatever follows. -/
def Passed (alphabet : Alphabet) (e : Expr Unit) : Prop :=
  ∀ rest, Follows true e rest → Passes alphabet (e.print.toList ++ rest) rest [e]

theorem OneToken.passed (one : OneToken alphabet true e) (leaf : e.children = []) (here : Apart e) :
    Passed alphabet e := by
  obtain ⟨token, derives, read⟩ := one
  intro rest follows tokens lexes
  obtain ⟨left, same, behind⟩ := lexes.of_token (read rest follows)
  refine ⟨[token], left, same, behind, ?_⟩
  have keeps : Keeps [e] (0 + if hasWord e then 1 else 0) := .node (leaf ▸ .nil) here
  have count : words [token] = wordsOf e.children + if hasWord e then 1 else 0 :=
    derives.words_eq.trans (wordsOf_node e)
  rw [leaf] at count
  rwa [count]

theorem Passed.operand (passed : Passed alphabet e) (follows : e.isAssign = false → Follows true e rest) :
    Passes alphabet ((enclose e.isAssign e.print).toList ++ rest) rest [e] := by
  by_cases assigns : e.isAssign = true
  · have inner := passed (')' :: rest) (follows_closer (by decide) (by decide) rest)
    rw [enclose_append rest assigns]
    exact (inner.closed (by decide) (by decide) (by decide)).mark (by decide) (by decide) (by decide)
  · rw [Bool.not_eq_true] at assigns
    rw [assigns, enclose, if_neg Bool.false_ne_true]
    exact passed rest (follows assigns)

theorem passes_list (passed : ∀ e ∈ es, Passed alphabet e) :
    Passes alphabet ((printAll es).toList ++ ')' :: rest) (')' :: rest) es := by
  induction es with
  | nil => exact .refl
  | cons e later ih =>
      have first := passed e List.mem_cons_self
      cases later with
      | nil => exact first _ (follows_closer (by decide) (by decide) rest)
      | cons next later =>
          have behind := ih fun e mem => passed e (List.mem_cons_of_mem _ mem)
          rw [printAll_append]
          exact (first _ (follows_closer (by decide) (by decide) _)).trans
            (behind.space.mark (by decide) (by decide) (by decide))

theorem passed_index {object key : Expr Unit} (inner : Passed alphabet object) (within : Passed alphabet key) :
    Passed alphabet (.index () object key) := by
  intro rest _
  have first : Passes alphabet _ ('[' :: (key.print.toList ++ ']' :: rest)) [object] :=
    inner.operand fun _ => follows_closer (by decide) (by decide) _
  have second : Passes alphabet _ (']' :: rest) [key] := within _ (follows_closer (by decide) (by decide) _)
  have whole : Passes alphabet _ (']' :: rest) _ :=
    first.trans (second.mark (by decide) (by decide) (by decide))
  rw [index_append]
  exact .node rfl trivial (whole.closed (by decide) (by decide) (by decide))

theorem passed_call {callee : Expr Unit} {arguments : List (Expr Unit)} (inner : Passed alphabet callee)
    (within : ∀ e ∈ arguments, Passed alphabet e) : Passed alphabet (.call () callee arguments) := by
  intro rest _
  have first : Passes alphabet _ ('(' :: ((printAll arguments).toList ++ ')' :: rest)) [callee] :=
    inner.operand fun _ => follows_closer (by decide) (by decide) _
  have whole : Passes alphabet _ (')' :: rest) _ :=
    first.trans ((passes_list within).mark (by decide) (by decide) (by decide))
  rw [call_append]
  exact .node rfl trivial (whole.closed (by decide) (by decide) (by decide))

theorem passed_assign {target value : Expr Unit} (inner : Passed alphabet target)
    (within : Passed alphabet value) : Passed alphabet (.assign () target value) := by
  intro rest follows
  have free : rest.head? ≠ some '.' := fun point => follows.2 point
  have second := within rest ⟨follows.1, fun point => absurd point free⟩
  rw [assign_append]
  refine .node rfl trivial ((inner _ (follows_closer (by decide) (by decide) _)).trans ?_)
  exact (second.space.token (scan?_equals _)).space

/-! ### Properties -/

/-- Where a character goes on that cannot start anything, nothing is read. -/
theorem not_lexes_part {c : Char} (part : alphabet.isPart c = true) (start : alphabet.isStart c = false)
    (digit : c.isDigit = false) {tokens : List Token} : ¬ Lexes alphabet true (c :: rest) tokens := by
  have other : ∀ d ∈ '"' :: marks, d.toNat < 128 ∧ Identifier.isPart d = false :=
    List.all_iff_forall_prop.mp (by decide)
  have apart : c ∉ '"' :: marks := by
    intro mem
    obtain ⟨ascii, none⟩ := other c mem
    rw [alphabet.isPart_ascii c ascii, none] at part
    cases part
  intro lexes
  cases lexes with
  | space blank => rw [alphabet.isPart_space c blank] at part; cases part
  | token found => rw [scan?_eq_none start digit apart] at found; cases found

/-- Neither a word nor what follows it starts with a sign. -/
theorem takeSign_word {parts : List Char} (all : ∀ c ∈ parts, alphabet.isPart c = true) (stops : Stops rest) :
    takeSign (parts ++ rest) = (1, parts ++ rest) := by
  have none : ∀ c ∈ ['+', '-'], c.toNat < 128 ∧ Identifier.isPart c = false ∧ c ∉ closers :=
    List.all_iff_forall_prop.mp (by decide)
  have other : ∀ c ∈ ['+', '-'], (parts ++ rest).head? ≠ some c := by
    intro c sign same
    obtain ⟨ascii, part, closer⟩ := none c sign
    cases parts with
    | nil => exact closer (stops c same)
    | cons d parts =>
        cases same
        have here := all c List.mem_cons_self
        rw [alphabet.isPart_ascii c ascii, part] at here
        cases here
  rw [takeSign]
  · exact fun _ same => other '+' (by decide) (by rw [same]; rfl)
  · exact fun _ same => other '-' (by decide) (by rw [same]; rfl)

/-- If an exponent is read of a word, it has the letter and the digits behind it. -/
theorem takeExponent?_word {first : Char} {parts left : List Char} {exponent : Int}
    (all : ∀ c ∈ parts, alphabet.isPart c = true) (stops : Stops rest)
    (read : takeExponent? (first :: (parts ++ rest)) = some (exponent, left)) :
    left = first :: (parts ++ rest) ∨ left = parts.dropWhile Char.isDigit ++ rest := by
  rw [takeExponent?] at read
  split at read
  next =>
    rw [takeSign_word all stops] at read
    dsimp only at read
    split at read
    next => cases read
    next =>
      cases read
      have stop : rest.dropWhile Char.isDigit = rest :=
        (takeWhile_append_stop (fun c mem => absurd mem List.not_mem_nil) stops.isDigit).2
      right
      rw [List.dropWhile_append, stop]
      split
      next none => rw [List.isEmpty_iff.mp none, List.nil_append]
      next => rfl
  next =>
    cases read
    exact .inl rfl

/-- A number that is read of digits, a point and a word ends behind the digits of the word. -/
theorem scanNumeral?_word {whole parts left : List Char} {first : Char} {token : Token}
    (digits : ∀ c ∈ whole, c.isDigit = true) (start : alphabet.isStart first = true)
    (all : ∀ c ∈ parts, alphabet.isPart c = true) (stops : Stops rest)
    (read : scanNumeral? alphabet true (whole ++ '.' :: first :: (parts ++ rest)) = some (token, left)) :
    (∃ value, token = .numeral value) ∧ left = parts.dropWhile Char.isDigit ++ rest ∧
      ∀ c ∈ left.head?, alphabet.isStart c = false ∧ c.isDigit = false := by
  have point : ∀ c ∈ ('.' :: first :: (parts ++ rest)).head?, c.isDigit = false := by
    intro c mem
    cases mem
    decide
  have letter : ¬ first.isDigit = true := by
    intro digit
    rw [isStart_digit digit] at start
    cases start
  obtain ⟨taken, dropped⟩ := takeWhile_append_stop digits point
  have fraction : takeFraction true ('.' :: first :: (parts ++ rest)) = ([], first :: (parts ++ rest)) := by
    rw [takeFraction, Bool.true_or, if_pos rfl, List.takeWhile_cons_of_neg letter,
      List.dropWhile_cons_of_neg letter]
  simp only [scanNumeral?, taken, dropped, fraction, Option.bind_eq_bind, Option.bind_eq_some_iff,
    Option.guard_eq_some', Option.pure_def, Option.some.injEq, Prod.mk.injEq, Prod.exists, exists_and_left,
    exists_const] at read
  obtain ⟨-, exponent, behind, found, ends, rfl, rfl⟩ := read
  have free : ∀ c ∈ behind.head?, alphabet.isStart c = false ∧ c.isDigit = false := by
    intro c mem
    rw [Option.mem_def] at mem
    simpa [mem] using ends
  refine ⟨⟨_, rfl⟩, ?_, free⟩
  refine (takeExponent?_word all stops found).resolve_left ?_
  rintro rfl
  rw [(free first rfl).1] at start
  cases start

/-- Behind digits and a point a word is read as part of the number, or not at all. -/
theorem lexes_numeral_word {whole : List Char} {key : String} {tokens : List Token} (before : IsWhole whole)
    (word : alphabet.IsWord key) (stops : Stops rest)
    (lexes : Lexes alphabet true (whole ++ '.' :: (key.toList ++ rest)) tokens) :
    ∃ value left, tokens = .numeral value :: left ∧ Lexes alphabet true rest left := by
  obtain ⟨first, parts, chars, start, all⟩ := word
  obtain ⟨nonempty, digits, -⟩ := before
  rw [chars] at lexes
  cases whole with
  | nil => exact absurd rfl nonempty
  | cons c more =>
      have digit : c.isDigit = true := digits c List.mem_cons_self
      cases lexes with
      | space blank => rw [isDigit_space blank] at digit; cases digit
      | @token _ token left tokens found later =>
          rw [List.cons_append, scan?_digit digit] at found
          obtain ⟨⟨value, rfl⟩, rfl, free⟩ := scanNumeral?_word digits start all stops found
          cases ends : parts.dropWhile Char.isDigit with
          | nil =>
              rw [ends] at later
              exact ⟨value, tokens, rfl, later⟩
          | cons d behind =>
              -- the exponent ends inside of the word, and what is left of the word starts no token
              rw [ends] at later free
              obtain ⟨other, digit'⟩ := free d rfl
              have mem : d ∈ parts := (List.dropWhile_sublist _).subset (ends ▸ List.mem_cons_self)
              exact absurd later (not_lexes_part (all d mem) other digit')

/-- A property of a number that is written without a point is passed without the word of the property. -/
theorem passed_taken {bits : UInt64} {key : String}
    (finite : ∃ mantissa exponent, Binary64.ofBits bits = .finite false mantissa exponent)
    (pointless : ¬ Pointed bits) (word : alphabet.IsWord key) :
    Passed alphabet (.member () (.literal () (.number bits)) key) := by
  obtain ⟨whole, fraction, text, before, -, -⟩ := exists_digits finite
  have none : fraction = [] := by
    cases fraction with
    | nil => rfl
    | cons c fraction =>
        refine absurd ?_ pointless
        rw [Pointed, text, pointed]
        simp
  intro rest follows tokens lexes
  have operand : (literal () (.number bits)).isAssign = false := rfl
  rw [member_append, operand, enclose, if_neg Bool.false_ne_true, print, text, none, pointed,
    List.append_nil] at lexes
  obtain ⟨value, left, rfl, behind⟩ := lexes_numeral_word before word follows.1 lexes
  have count : wordsOf [.member () (.literal () (.number bits)) key] = 1 := rfl
  refine ⟨[.numeral value], left, rfl, behind, Nat.zero_le _, fun all => ?_⟩
  rw [count] at all
  cases all

theorem exists_of_not_apart {object : Expr Unit} {key : String} (taken : ¬ Apart (.member () object key)) :
    ∃ bits, object = .literal () (.number bits) ∧ ¬ Pointed bits := by
  cases object with
  | literal tag value =>
      cases value with
      | number bits => exact ⟨bits, rfl, taken⟩
      | string _ | boolean _ | null => exact absurd trivial taken
  | ident | member | index | call | assign => exact absurd trivial taken

theorem passed_member {object : Expr Unit} {key : String} (word : alphabet.IsWord key)
    (here : Apart (.member () object key)) (inner : Passed alphabet object) :
    Passed alphabet (.member () object key) := by
  intro rest follows tokens lexes
  rw [member_append] at lexes
  have first := inner.operand fun operand => follows_point word (fun _ => here) operand rest
  obtain ⟨taken, left, rfl, lexes', keeps⟩ := first tokens lexes
  obtain ⟨named, rfl, lexes''⟩ := lexes'.of_token (scan?_point word rest)
  obtain ⟨behind, rfl, after⟩ := lexes''.of_token (scan?_word word follows.1)
  have whole : Keeps [.member () object key] (words taken + 1) := .node keeps here
  refine ⟨taken ++ [.mark '.', .word key], behind, by simp, after, ?_⟩
  simpa using whole

/-- Every expression that can be read is passed. -/
theorem passed_of_readable (readable : Readable alphabet e) : Passed alphabet e := by
  induction e using children_induction with
  | step e ih =>
      have below : ∀ c ∈ e.children, Passed alphabet c := fun c child =>
        ih c child (forall_parts_of_child readable child)
      have here : Fine alphabet e := readable e (mem_parts_self e)
      cases e with
      | ident tag name => exact (oneToken_name here).passed rfl trivial
      | literal tag value => exact (oneToken_literal here).passed rfl trivial
      | member tag object key =>
          by_cases apart : Apart (.member () object key)
          · exact passed_member here apart (below object List.mem_cons_self)
          · obtain ⟨bits, rfl, pointless⟩ := exists_of_not_apart apart
            have finite := readable _ (mem_parts_of_child (mem_parts_self _) List.mem_cons_self)
            exact passed_taken finite pointless here
      | index tag object key =>
          exact passed_index (below object List.mem_cons_self)
            (below key (List.mem_cons_of_mem _ List.mem_cons_self))
      | call tag callee arguments =>
          exact passed_call (below callee List.mem_cons_self) fun e mem => below e (List.mem_cons_of_mem _ mem)
      | assign tag target value =>
          exact passed_assign (below target List.mem_cons_self)
            (below value (List.mem_cons_of_mem _ List.mem_cons_self))

/-- An expression that its text is read as has no number that takes a point. -/
theorem pointsApart_of_reads (readable : Readable alphabet e) (reads : Reads alphabet true e.print e) :
    PointsApart e := by
  obtain ⟨tokens, lexes, derives⟩ := reads
  rw [← List.append_nil e.print.toList] at lexes
  -- tokens that make up the expression have all its words
  obtain ⟨taken, left, rfl, behind, keeps⟩ := passed_of_readable readable [] follows_nil tokens lexes
  cases behind.unique .nil
  rw [List.append_nil] at derives
  exact keeps.apart derives.words_eq e List.mem_cons_self

/-! ## Reading back -/

/-- An expression is read back from its text, as itself only, exactly if it reads no property from a number
    that is written without a point.  No two expressions are written alike. -/
theorem reads_print_iff (readable : Readable alphabet e) :
    (Reads alphabet true e.print e ↔ PointsApart e) ∧
      (PointsApart e → ∀ other, Reads alphabet true e.print other → other = e) ∧
        ∀ other, Readable alphabet other → other.print = e.print → other = e := by
  refine ⟨⟨pointsApart_of_reads readable, fun apart => reads_print readable fun _ => apart⟩, ?_, ?_⟩
  · exact fun apart other reads => reads.unique (reads_print readable fun _ => apart)
  · intro other readable' same
    have first : Reads alphabet false e.print e := reads_print readable fun greedy => by cases greedy
    have second : Reads alphabet false other.print other := reads_print readable' fun greedy => by cases greedy
    rw [same] at second
    exact second.unique first

/-- An expression with most of what can be written, one inside of the other. -/
def nested : Expr Unit :=
  .call () (.member () (.index () (.assign () (.ident () "a") (.ident () "b"))
      (.literal () (.string "é\n"))) "default")
    [.literal () (.number 0x3fe0000000000000),
      .assign () (.member () (.ident () "x") "y") (.literal () .null)]

theorem readable_nested : Readable .plain nested := by
  intro p part
  simp only [nested, parts, partsAll, List.nil_append, List.cons_append, List.mem_cons, List.not_mem_nil,
    or_false] at part
  rcases part with rfl | rfl | rfl | rfl | rfl | rfl | rfl | rfl | rfl | rfl | rfl | rfl
  all_goals first
    | exact ⟨isWord_of_isPlain (by decide), by decide⟩
    | exact isWord_of_isPlain (by decide)
    | exact Binary64.lt_infinityBits_iff.mp (by decide)
    | trivial

theorem pointsApart_nested : PointsApart nested := by
  intro p part
  simp only [nested, parts, partsAll, List.nil_append, List.cons_append, List.mem_cons, List.not_mem_nil,
    or_false] at part
  rcases part with rfl | rfl | rfl | rfl | rfl | rfl | rfl | rfl | rfl | rfl | rfl | rfl
  all_goals trivial

theorem reads_nested :
    Readable .plain nested ∧ PointsApart nested ∧
      ∀ other, Reads .plain true "(a = b)[\"é\\n\"].default(0.5, x.y = null)" other ↔ other = nested := by
  have text : nested.print = "(a = b)[\"é\\n\"].default(0.5, x.y = null)" := by decide +kernel
  obtain ⟨reads, only, -⟩ := reads_print_iff readable_nested
  rw [text] at reads only
  refine ⟨readable_nested, pointsApart_nested, fun other => ⟨only pointsApart_nested other, ?_⟩⟩
  rintro rfl
  exact reads.mpr pointsApart_nested

/-- A property that is read from the number one. -/
def dotted (key : String) : Expr Unit := .member () (.literal () (.number 0x3ff0000000000000)) key

theorem readable_dotted {key : String} (plain : Identifier.isPlain key = true) :
    Readable .plain (dotted key) := by
  intro p part
  simp only [dotted, parts, List.cons_append, List.nil_append, List.mem_cons, List.not_mem_nil,
    or_false] at part
  rcases part with rfl | rfl
  · exact Binary64.lt_infinityBits_iff.mp (by decide)
  · exact isWord_of_isPlain plain

theorem not_lexes_dotted {tokens : List Token} : ¬ Lexes .plain true ['1', '.', 'x'] tokens := by
  intro lexes
  have none : scan? .plain true ['1', '.', 'x'] = none := by decide +kernel
  cases lexes with
  | space blank => exact absurd blank (by decide)
  | token found => rw [none] at found; cases found

theorem lexes_exponent : Lexes .plain true ['1', '.', 'e', '5'] [.numeral 100000] := by
  have read : scan? .plain true ['1', '.', 'e', '5'] = some (.numeral 100000, []) := by decide +kernel
  exact .token read .nil

theorem roundsTo_exponent : Binary64.RoundsTo 100000 0x40f86a0000000000 := by
  have mantissa : Binary64.mantissaAt (0x40f86a0000000000 : UInt64).toNat = 100000 * 2 ^ 36 := by decide
  have exponent : Binary64.exponentAt (0x40f86a0000000000 : UInt64).toNat = -36 := by decide
  have value : Binary64.valueAt (0x40f86a0000000000 : UInt64).toNat = 100000 := by
    rw [Binary64.valueAt, mantissa, exponent]
    norm_num
  exact value ▸ Binary64.roundsTo_valueAt (by decide)

/-- The first text is not read at all, and the second one as the number one hundred thousand. -/
theorem not_reads_dotted :
    (Readable .plain (dotted "x") ∧ ¬ ∃ e, Reads .plain true (dotted "x").print e) ∧
      Readable .plain (dotted "e5") ∧
      Reads .plain true (dotted "e5").print (.literal () (.number 0x40f86a0000000000)) := by
  have first : (dotted "x").print.toList = ['1', '.', 'x'] := by decide +kernel
  have second : (dotted "e5").print.toList = ['1', '.', 'e', '5'] := by decide +kernel
  refine ⟨⟨readable_dotted (by decide), ?_⟩, readable_dotted (by decide), ?_⟩
  · rintro ⟨e, tokens, lexes, -⟩
    rw [first] at lexes
    exact not_lexes_dotted lexes
  · refine ⟨[.numeral 100000], ?_, .whole (.number roundsTo_exponent)⟩
    rw [second]
    exact lexes_exponent

end Bundler.Reading
