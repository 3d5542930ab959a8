import Mathlib.Data.List.Infix
import Solnet.Lib.Hex

/-! JSON texts: what a text is made of, from the characters of a string up to the objects,
with the white space between them. A string literal is a list of items, each written as it
stands or as an escape. -/
namespace JsonText

/-- The letters that follow a backslash, and the characters they stand for. -/
def shortEscapes : List (Char × Char) :=
  [('\x22', '\x22'), ('\x5c', '\x5c'), ('/', '/'), ('b', '\x08'), ('f', '\x0c'), ('n', '\n'),
    ('r', '\r'), ('t', '\t')]

/-- A string has control characters, quotes and backslashes only as escapes. -/
def standsPlain (c : Char) : Bool := 0x20 ≤ c.toNat && c != '\x22' && c != '\x5c'

structure HexDigit where
  char : Char
  value : Nat
  reads : Hex.digitValue char = some value

/-- The four digits of a `\u` escape. -/
structure CodeUnit where
  first : HexDigit
  second : HexDigit
  third : HexDigit
  fourth : HexDigit

namespace CodeUnit

def text (unit : CodeUnit) : List Char :=
  ['\x5c', 'u', unit.first.char, unit.second.char, unit.third.char, unit.fourth.char]

def value (unit : CodeUnit) : Nat :=
  4096 * unit.first.value + 256 * unit.second.value + 16 * unit.third.value + unit.fourth.value

end CodeUnit

/-- One character of a string, as it is written. -/
inductive Item where
  | plain (c : Char) (valid : standsPlain c = true)
  | short (letter c : Char) (listed : (letter, c) ∈ shortEscapes)
  | unicode (unit : CodeUnit) (scalar : unit.value.isValidChar)
  | surrogates (high low : CodeUnit) (leads : 0xD800 ≤ high.value ∧ high.value < 0xDC00)
    (trails : 0xDC00 ≤ low.value ∧ low.value < 0xE000)

namespace Item

def text : Item → List Char
  | .plain c _ => [c]
  | .short letter _ _ => ['\x5c', letter]
  | .unicode unit _ => unit.text
  | .surrogates high low _ _ => high.text ++ low.text

def char : Item → Char
  | .plain c _ => c
  | .short _ c _ => c
  | .unicode unit _ => Char.ofNat unit.value
  | .surrogates high low _ _ =>
    Char.ofNat (0x10000 + 0x400 * (high.value - 0xD800) + (low.value - 0xDC00))

def escaped : Item → Bool
  | .plain _ _ => false
  | _ => true

end Item

abbrev Literal := List Item

namespace Literal

def text (literal : Literal) : List Char := literal.flatMap Item.text

def chars (literal : Literal) : List Char := literal.map Item.char

def decoded (literal : Literal) : String := String.ofList literal.chars

end Literal

structure Blank where
  chars : List Char
  blank : ∀ c ∈ chars, c ∈ [' ', '\n', '\t', '\r']

structure Digits where
  chars : List Char
  some : chars ≠ []
  digits : ∀ c ∈ chars, c.isDigit = true

structure Exponent where
  mark : Char
  marked : mark = 'e' ∨ mark = 'E'
  sign : Option Char
  signed : ∀ c ∈ sign, c = '+' ∨ c = '-'
  digits : Digits

structure NumberText where
  negative : Bool
  whole : Digits
  noLeadingZero : whole.chars.head? = some '0' → whole.chars = ['0']
  fraction : Option Digits
  exponent : Option Exponent

def NumberText.text (number : NumberText) : List Char :=
  (if number.negative then ['-'] else []) ++ number.whole.chars ++
    (number.fraction.elim [] fun digits => '.' :: digits.chars) ++
    number.exponent.elim [] fun exponent =>
      exponent.mark :: (exponent.sign.toList ++ exponent.digits.chars)

/-! The values. An array or an object that is not empty has its entries in a list. -/

mutual

inductive Json where
  | null
  | bool (value : Bool)
  | number (number : NumberText)
  | string (literal : Literal)
  | emptyArray (inside : Blank)
  | array (elements : Elements)
  | emptyObject (inside : Blank)
  | object (members : Members)

inductive Elements where
  | last (before : Blank) (value : Json) (after : Blank)
  | cons (before : Blank) (value : Json) (after : Blank) (rest : Elements)

inductive Members where
  | last (before : Blank) (key : Literal) (beforeColon afterColon : Blank) (value : Json)
    (after : Blank)
  | cons (before : Blank) (key : Literal) (beforeColon afterColon : Blank) (value : Json)
    (after : Blank) (rest : Members)

end

/-- A text is a sequence of marks, words and numbers, blanks and quoted strings. -/
inductive Token where
  | mark (c : Char)
  | word (chars : List Char)
  | blank (spaces : Blank)
  | quoted (literal : Literal)

namespace Token

def text : Token → List Char
  | .mark c => [c]
  | .word chars => chars
  | .blank spaces => spaces.chars
  | .quoted literal => '\x22' :: (literal.text ++ ['\x22'])

def literal? : Token → Option Literal
  | .quoted literal => some literal
  | _ => none

def opens : Token → Bool
  | .mark c => c = '\x7b' || c = '['
  | _ => false

end Token

mutual

def Json.tokens : Json → List Token
  | .null => [.word ['n', 'u', 'l', 'l']]
  | .bool value => [.word (if value then ['t', 'r', 'u', 'e'] else ['f', 'a', 'l', 's', 'e'])]
  | .number number => [.word number.text]
  | .string literal => [.quoted literal]
  | .emptyArray inside => [.mark '[', .blank inside, .mark ']']
  | .array elements => .mark '[' :: (elements.tokens ++ [.mark ']'])
  | .emptyObject inside => [.mark '\x7b', .blank inside, .mark '\x7d']
  | .object members => .mark '\x7b' :: (members.tokens ++ [.mark '\x7d'])

def Elements.tokens : Elements → List Token
  | .last before value after => .blank before :: (value.tokens ++ [.blank after])
  | .cons before value after rest =>
    .blank before :: (value.tokens ++ .blank after :: .mark ',' :: rest.tokens)

def Members.tokens : Members → List Token
  | .last before key beforeColon afterColon value after =>
    .blank before :: .quoted key :: .blank beforeColon :: .mark ':' :: .blank afterColon ::
      (value.tokens ++ [.blank after])
  | .cons before key beforeColon afterColon value after rest =>
    .blank before :: .quoted key :: .blank beforeColon :: .mark ':' :: .blank afterColon ::
      (value.tokens ++ .blank after :: .mark ',' :: rest.tokens)

end

/-! The nesting of arrays and objects. -/

mutual

def Json.depth : Json → Nat
  | .emptyArray _ => 1
  | .array elements => 1 + elements.depth
  | .emptyObject _ => 1
  | .object members => 1 + members.depth
  | _ => 0

def Elements.depth : Elements → Nat
  | .last _ value _ => value.depth
  | .cons _ value _ rest => max value.depth rest.depth

def Members.depth : Members → Nat
  | .last _ _ _ _ value _ => value.depth
  | .cons _ _ _ _ value _ rest => max value.depth rest.depth

end

/-- A text is one value with blanks around it. -/
structure Document where
  before : Blank
  value : Json
  after : Blank

namespace Document

def tokens (d : Document) : List Token := .blank d.before :: (d.value.tokens ++ [.blank d.after])

def text (d : Document) : List Char := d.tokens.flatMap Token.text

def literals (d : Document) : List Literal := d.tokens.filterMap Token.literal?

def depth (d : Document) : Nat := d.value.depth

end Document

/-! Brackets and literals of a text. -/

variable {d : Document} {l : Literal}

mutual

theorem Json.depth_le_opens : ∀ json : Json, json.depth ≤ json.tokens.countP Token.opens
  | .null | .bool _ | .number _ | .string _ => Nat.zero_le _
  | .emptyArray _ | .emptyObject _ => Nat.le_refl 1
  | .array elements => by
    have inner := elements.depth_le_opens
    have opens : (Token.mark '[').opens = true := rfl
    simp only [Json.depth, Json.tokens, List.countP_cons, List.countP_append, opens, if_true]
    omega
  | .object members => by
    have inner := members.depth_le_opens
    have opens : (Token.mark '\x7b').opens = true := rfl
    simp only [Json.depth, Json.tokens, List.countP_cons, List.countP_append, opens, if_true]
    omega

theorem Elements.depth_le_opens : ∀ elements : Elements,
    elements.depth ≤ elements.tokens.countP Token.opens
  | .last _ value _ => by
    have first := value.depth_le_opens
    simp only [Elements.depth, Elements.tokens, List.countP_cons, List.countP_append]
    omega
  | .cons _ value _ rest => by
    have first := value.depth_le_opens
    have others := rest.depth_le_opens
    simp only [Elements.depth, Elements.tokens, List.countP_cons, List.countP_append]
    omega

theorem Members.depth_le_opens : ∀ members : Members,
    members.depth ≤ members.tokens.countP Token.opens
  | .last _ _ _ _ value _ => by
    have first := value.depth_le_opens
    simp only [Members.depth, Members.tokens, List.countP_cons, List.countP_append]
    omega
  | .cons _ _ _ _ value _ rest => by
    have first := value.depth_le_opens
    have others := rest.depth_le_opens
    simp only [Members.depth, Members.tokens, List.countP_cons, List.countP_append]
    omega

end

/-- The characters that open an array or an object, inside strings too. -/
def brackets (chars : List Char) : Nat := chars.countP fun c => c = '\x7b' || c = '['

theorem opens_le_brackets (tokens : List Token) :
    tokens.countP Token.opens ≤ brackets (tokens.flatMap Token.text) := by
  induction tokens with
  | nil => exact Nat.le_refl 0
  | cons token tokens ih =>
    rw [List.countP_cons, List.flatMap_cons, brackets, List.countP_append]
    have first : (if token.opens then 1 else 0) ≤ brackets token.text := by
      cases token with
      | mark c => simp [Token.opens, Token.text, brackets, List.countP_cons]
      | _ => exact Nat.zero_le _
    unfold brackets at ih first
    omega

theorem Document.depth_le_brackets (d : Document) : d.depth ≤ brackets d.text := by
  have inner := d.value.depth_le_opens
  have marks := opens_le_brackets d.tokens
  simp only [Document.tokens, List.countP_cons, List.countP_append] at marks
  unfold Document.depth
  rw [Document.text, Document.tokens]
  omega

theorem Document.literal_infix (member : l ∈ d.literals) : l.text <:+: d.text := by
  obtain ⟨token, inside, quoted⟩ := List.mem_filterMap.mp member
  have text : l.text <:+: token.text := by
    cases token with
    | quoted literal =>
      obtain rfl : literal = l := Option.some.inj quoted
      exact ⟨['\x22'], ['\x22'], by simp [Token.text]⟩
    | _ => cases quoted
  obtain ⟨pre, post, split⟩ := List.append_of_mem inside
  exact text.trans ⟨pre.flatMap Token.text, post.flatMap Token.text, by simp [Document.text, split]⟩

/-! Strings without escapes stand in the text as they are. -/

theorem Literal.text_of_plain (plain : ∀ item ∈ l, item.escaped = false) : l.text = l.chars := by
  induction l with
  | nil => rfl
  | cons item items ih =>
    obtain ⟨first, rest⟩ := List.forall_mem_cons.mp plain
    rw [Literal.text, List.flatMap_cons, Literal.chars, List.map_cons]
    change item.text ++ Literal.text items = item.char :: Literal.chars items
    rw [ih rest]
    cases item with
    | plain c valid => rfl
    | _ => cases first

theorem Item.backslash_of_escaped (item : Item) (escaped : item.escaped = true) :
    '\x5c' ∈ item.text := by
  cases item with
  | plain c valid => cases escaped
  | short letter c listed => exact List.mem_cons_self
  | unicode unit scalar => exact List.mem_cons_self
  | surrogates high low leads trails => exact List.mem_cons_self

theorem Literal.text_infix {part : Literal} (inside : part <:+: l) : part.text <:+: l.text := by
  obtain ⟨pre, post, rfl⟩ := inside
  exact ⟨Literal.text pre, Literal.text post, by simp [Literal.text]⟩

/-- A part of a list with some property, none of whose own parts have it. -/
def Tight {α : Type*} (P : List α → Prop) (part : List α) : Prop :=
  P part ∧ ∀ smaller, smaller <:+: part → P smaller → smaller = part

theorem exists_tight {α : Type*} {P : List α → Prop} {items : List α} (holds : P items) :
    ∃ part, part <:+: items ∧ Tight P part := by
  induction size : items.length using Nat.strong_induction_on generalizing items with
  | h n ih =>
    by_cases tight : Tight P items
    · exact ⟨items, List.infix_rfl, tight⟩
    · obtain ⟨smaller, inside, has, differs⟩ : ∃ smaller, smaller <:+: items ∧ P smaller ∧
          smaller ≠ items := by
        by_contra none
        refine tight ⟨holds, fun smaller inside has => ?_⟩
        by_contra differs
        exact none ⟨smaller, inside, has, differs⟩
      have shorter : smaller.length < n := by
        rw [← size]
        exact Nat.lt_of_le_of_ne inside.length_le fun same => differs (inside.eq_of_length same)
      obtain ⟨part, within, tight⟩ := ih smaller.length shorter has rfl
      exact ⟨part, within.trans inside, tight⟩

end JsonText
