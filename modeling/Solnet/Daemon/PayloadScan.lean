import Solnet.Daemon.AttackPrevention
import Solnet.Daemon.Json
import Solnet.Lib.JsonText

/-! The scan of a request body, which looks at the text, beside the JSON that the text is read
as. -/
namespace Solnet.Daemon
open JsonText

/-! The value of a text, with the numbers read as `numberOf` says. Of two members with one
key the later stays. -/

mutual

def valueOf (numberOf : NumberText → Number) : Json → Value
  | .null => .null
  | .bool value => .bool value
  | .number number => .number (numberOf number)
  | .string literal => .string literal.decoded
  | .emptyArray _ => .array []
  | .array elements => .array (itemsOf numberOf elements)
  | .emptyObject _ => .object []
  | .object members => .object (membersOf numberOf [] members)

def itemsOf (numberOf : NumberText → Number) : Elements → List Value
  | .last _ value _ => [valueOf numberOf value]
  | .cons _ value _ rest => valueOf numberOf value :: itemsOf numberOf rest

def membersOf (numberOf : NumberText → Number) (read : Members) : JsonText.Members → Members
  | .last _ key _ _ value _ => read.insert key.decoded (valueOf numberOf value)
  | .cons _ key _ _ value _ rest =>
    membersOf numberOf (read.insert key.decoded (valueOf numberOf value)) rest

end

/-- What `from_str` accepts is JSON, and it returns the value of the text. -/
def ReadsJson (lib : Serde) (numberOf : NumberText → Number) : Prop :=
  ∀ text value, lib.fromStr text = some value →
    ∃ d : Document, d.text = text.toList ∧ valueOf numberOf d.value = value

/-- A string of the value, at any depth, or a key. -/
inductive Value.Mentions (s : String) : Value → Prop where
  | here : Mentions s (.string s)
  | item {value : Value} {items : List Value} (member : value ∈ items)
    (inside : Mentions s value) : Mentions s (.array items)
  | key {value : Value} {members : Members} (member : (s, value) ∈ members) :
    Mentions s (.object members)
  | member {key : String} {value : Value} {members : Members} (member : (key, value) ∈ members)
    (inside : Mentions s value) : Mentions s (.object members)

namespace PayloadScan

/-- The match the scan makes, which ignores case. -/
def Contains (pattern : String) (chars : List Char) : Prop :=
  toLowercase pattern <:+: chars.flatMap lowercase

instance (pattern : String) (chars : List Char) : Decidable (Contains pattern chars) :=
  inferInstanceAs (Decidable (_ <:+: _))

/-- A pattern stands in the literal, and a character of it is written as an escape. -/
def Hidden (pattern : String) (literal : Literal) : Prop :=
  ∃ part : Literal, part <:+: literal ∧ Tight (fun l : Literal => Contains pattern l.chars) part ∧
    ∃ item ∈ part, item.escaped = true

variable {numberOf : NumberText → Number} {lib : Serde} {body s : String} {value : Value}
  {d : Document}

/-! The strings of the value are the literals of the text. -/

theorem mem_insert {key k : String} {v : Value} {members : Members}
    (member : (k, v) ∈ members.insert key value) : (k, v) = (key, value) ∨ (k, v) ∈ members := by
  induction members with
  | nil => exact .inl (List.mem_singleton.mp member)
  | cons m members ih =>
    obtain ⟨k', v'⟩ := m
    rw [Members.insert] at member
    split at member
    · exact (List.mem_cons.mp member).imp id (List.mem_cons_of_mem _)
    · split at member
      · exact List.mem_cons.mp member
      · rcases List.mem_cons.mp member with same | later
        · exact .inr (same ▸ List.mem_cons_self)
        · exact (ih later).imp id (List.mem_cons_of_mem _)

def Spells (tokens : List Token) (s : String) : Prop :=
  ∃ l : Literal, Token.quoted l ∈ tokens ∧ l.decoded = s

theorem Spells.mono {tokens tokens' : List Token} (spells : Spells tokens s)
    (sub : tokens ⊆ tokens') : Spells tokens' s := by
  obtain ⟨l, member, decoded⟩ := spells
  exact ⟨l, sub member, decoded⟩

theorem spells_of_insert {tokens : List Token} {key k : String} {v : Value} {members : Members}
    (member : (k, v) ∈ members.insert key value)
    (own : Spells tokens key ∧ ∀ s, value.Mentions s → Spells tokens s) :
    (k, v) ∈ members ∨ Spells tokens k ∧ ∀ s, v.Mentions s → Spells tokens s := by
  rcases mem_insert member with here | before
  · obtain ⟨rfl, rfl⟩ := Prod.mk.inj here
    exact .inr own
  · exact .inl before

mutual

theorem spells_of_mentions : ∀ (json : Json) (s : String),
    Value.Mentions s (valueOf numberOf json) → Spells json.tokens s
  | .null, s, mentions | .bool _, s, mentions | .number _, s, mentions => nomatch mentions
  | .string literal, s, mentions => by
    cases mentions
    exact ⟨literal, List.mem_singleton.mpr rfl, rfl⟩
  | .emptyArray _, s, mentions => by
    cases mentions with
    | item member inside => exact absurd member List.not_mem_nil
  | .array elements, s, mentions => by
    cases mentions with
    | item member inside =>
      exact (spells_of_item elements _ member s inside).mono (by simp [Json.tokens])
  | .emptyObject _, s, mentions => by
    cases mentions with
    | key member => exact absurd member List.not_mem_nil
    | member member inside => exact absurd member List.not_mem_nil
  | .object members, s, mentions => by
    cases mentions with
    | key member =>
      have found := (spells_of_member members [] _ _ member).resolve_left List.not_mem_nil
      exact found.1.mono (by simp [Json.tokens])
    | member member inside =>
      have found := (spells_of_member members [] _ _ member).resolve_left List.not_mem_nil
      exact (found.2 s inside).mono (by simp [Json.tokens])

theorem spells_of_item : ∀ (elements : Elements) (value : Value),
    value ∈ itemsOf numberOf elements → ∀ s, value.Mentions s → Spells elements.tokens s
  | .last _ json _, value, member, s, mentions => by
    rw [itemsOf, List.mem_singleton] at member
    exact (spells_of_mentions json s (member ▸ mentions)).mono (by simp [Elements.tokens])
  | .cons _ json _ rest, value, member, s, mentions => by
    rw [itemsOf, List.mem_cons] at member
    rcases member with same | later
    · exact (spells_of_mentions json s (same ▸ mentions)).mono (by simp [Elements.tokens])
    · apply (spells_of_item rest value later s mentions).mono
      intro token inside
      simp [Elements.tokens, inside]

theorem spells_of_member : ∀ (members : JsonText.Members) (read : Members) (key : String)
    (value : Value), (key, value) ∈ membersOf numberOf read members → (key, value) ∈ read ∨
      Spells members.tokens key ∧ ∀ s, value.Mentions s → Spells members.tokens s
  | .last _ literal _ _ json _, read, key, value, member => by
    refine spells_of_insert member ⟨⟨literal, by simp [Members.tokens], rfl⟩, fun s mentions => ?_⟩
    apply (spells_of_mentions json s mentions).mono
    intro token inside
    simp [Members.tokens, inside]
  | .cons before literal blank blank' json after rest, read, key, value, member => by
    rcases spells_of_member rest _ key value member with inserted | ⟨named, strings⟩
    · refine spells_of_insert inserted ⟨⟨literal, by simp [Members.tokens], rfl⟩, ?_⟩
      intro s mentions
      apply (spells_of_mentions json s mentions).mono
      intro token inside
      simp [Members.tokens, inside]
    · have later : rest.tokens ⊆
          (Members.cons before literal blank blank' json after rest).tokens := by
        intro token inside
        simp [Members.tokens, inside]
      exact .inr ⟨named.mono later, fun s mentions => (strings s mentions).mono later⟩

end

/-! What the scan passes. -/

theorem Contains.mono {pattern : String} {part chars : List Char} (contains : Contains pattern part)
    (inside : part <:+: chars) : Contains pattern chars := by
  obtain ⟨pre, post, rfl⟩ := inside
  exact List.IsInfix.trans contains ⟨pre.flatMap lowercase, post.flatMap lowercase, by simp⟩

theorem scanPayload_clean_iff : AttackPrevention.scanPayload body = .clean ↔
    body.utf8ByteSize ≤ 102400 ∧ (∀ pattern ∈ attackPatterns, ¬ Contains pattern body.toList) ∧
      brackets body.toList ≤ 20 := by
  have patterns : (attackPatterns.any fun p => decide (toLowercase p <:+: toLowercase body)) =
      true ↔ ¬ ∀ pattern ∈ attackPatterns, ¬ Contains pattern body.toList := by
    simp only [List.any_eq_true, decide_eq_true_eq, not_forall, not_not, exists_prop]
    rfl
  unfold AttackPrevention.scanPayload
  split
  · rename_i large
    simp [Nat.not_le.mpr large]
  · rename_i small
    rw [and_iff_right (Nat.le_of_not_lt small)]
    split
    · rename_i found
      simp only [reduceCtorEq, false_iff, not_and]
      exact fun none => absurd none (patterns.mp found)
    · rename_i absent
      rw [and_iff_right (not_not.mp (mt patterns.mpr absent))]
      split
      · rename_i nested
        simp only [reduceCtorEq, false_iff, Nat.not_le]
        exact nested
      · rename_i flat
        exact iff_of_true rfl (Nat.le_of_not_lt flat)

theorem scanPayload_blocked_iff : (∃ reason, AttackPrevention.scanPayload body = .blocked reason) ↔
    AttackPrevention.scanPayload body ≠ .clean := by
  cases AttackPrevention.scanPayload body with
  | clean => simp
  | blocked reason => simp

/-! The strings behind the scan. -/

/-- In a text that does not contain the pattern, a string contains it only through escapes. -/
theorem hidden_of_contains {pattern : String} {l : Literal} (absent : ¬ Contains pattern d.text)
    (member : l ∈ d.literals) (contains : Contains pattern l.chars) : Hidden pattern l := by
  obtain ⟨part, inside, tight⟩ := exists_tight (P := fun l : Literal => Contains pattern l.chars)
    contains
  refine ⟨part, inside, tight, ?_⟩
  by_contra none
  have plain : ∀ item ∈ part, item.escaped = false := by
    intro item within
    by_contra escaped
    exact none ⟨item, within, Bool.not_eq_false _ ▸ escaped⟩
  have written : Literal.text part <:+: d.text :=
    (Literal.text_infix inside).trans (d.literal_infix member)
  rw [Literal.text_of_plain plain] at written
  exact absent (Contains.mono tight.1 written)

theorem contains_of_hidden {pattern : String} {l : Literal} (hidden : Hidden pattern l) :
    Contains pattern l.chars := by
  obtain ⟨part, ⟨pre, post, rfl⟩, tight, _⟩ := hidden
  exact Contains.mono tight.1 ⟨Literal.chars pre, Literal.chars post, by simp [Literal.chars]⟩

/-- The payload scan sees what the parser sees. -/
def Sees (lib : Serde) (body : String) : Prop :=
  AttackPrevention.scanPayload body = .clean → ∀ value, lib.fromStr body = some value →
    ∀ s, value.Mentions s → ∀ pattern ∈ attackPatterns, ¬ Contains pattern s.toList

/-- Of the strings that the value keeps, none has a pattern with a character of it escaped. -/
def WrittenOut (lib : Serde) (numberOf : NumberText → Number) (body : String) : Prop :=
  ∀ d : Document, d.text = body.toList → lib.fromStr body = some (valueOf numberOf d.value) →
    ∀ l ∈ d.literals, (valueOf numberOf d.value).Mentions l.decoded →
      ∀ pattern ∈ attackPatterns, ¬ Hidden pattern l

/-- A body without a backslash has no escapes. -/
theorem writtenOut_of_plain (plain : '\x5c' ∉ body.toList) : WrittenOut lib numberOf body := by
  rintro d text _ l member _ pattern _ ⟨part, inside, _, item, within, escaped⟩
  apply plain
  rw [← text]
  apply (d.literal_infix member).subset
  exact List.mem_flatMap.mpr ⟨item, inside.subset within, item.backslash_of_escaped escaped⟩

theorem sees_iff (reads : ReadsJson lib numberOf) (body : String) :
    Sees lib body ↔ AttackPrevention.scanPayload body ≠ .clean ∨ WrittenOut lib numberOf body := by
  constructor
  · intro sees
    by_cases clean : AttackPrevention.scanPayload body = .clean
    · right
      intro d _ read l _ kept pattern listed hidden
      apply sees clean _ read l.decoded kept pattern listed
      rw [Literal.decoded, String.toList_ofList]
      exact contains_of_hidden hidden
    · exact .inl clean
  · intro condition clean value read s mentions pattern listed contains
    obtain ⟨d, text, rfl⟩ := reads body value read
    have absent : ¬ Contains pattern d.text := by
      rw [text]
      exact (scanPayload_clean_iff.mp clean).2.1 pattern listed
    obtain ⟨l, quoted, rfl⟩ := spells_of_mentions d.value s mentions
    have member : l ∈ d.literals := by
      refine List.mem_filterMap.mpr ⟨.quoted l, ?_, rfl⟩
      simp [Document.tokens, quoted]
    rw [Literal.decoded, String.toList_ofList] at contains
    rcases condition with blocked | writtenOut
    · exact blocked clean
    · exact writtenOut d text read l member mentions pattern listed
        (hidden_of_contains absent member contains)

/-! Calls of a method, of which one is a path with its first dot escaped. -/

def noBlank : Blank := ⟨[], nofun⟩

def written (text : String) (valid : text.toList.all standsPlain = true) : Literal :=
  text.toList.attach.map fun c => .plain c.val (List.all_eq_true.mp valid c.val c.property)

/-- The digits of a full stop, U+002E. -/
def fullStop : CodeUnit :=
  ⟨⟨'0', 0, by decide⟩, ⟨'0', 0, by decide⟩, ⟨'2', 2, by decide⟩, ⟨'e', 14, by decide⟩⟩

def upwards : Literal := .unicode fullStop (by decide) :: written "./" (by decide)

def callOf (method : Literal) : Document :=
  ⟨noBlank, .object (.last noBlank (written "method" (by decide)) noBlank noBlank (.string method)
    noBlank), noBlank⟩

def bodyOf (d : Document) : String := String.ofList d.text

def slotCall : Document := callOf (written "getSlot" (by decide))

def pathCall : Document := callOf (written "../" (by decide))

def escapedCall : Document := callOf upwards

def escapedBody : String := "\x7b\"method\":\"\\u002e./\"\x7d"

def methodValue (method : String) : Value := .object [("method", .string method)]

def callSerde : Serde where
  fromSlice bytes := (String.fromUTF8? bytes).bind fun text =>
    if text = escapedBody ∨ text = bodyOf pathCall then some (methodValue "../")
    else if text = bodyOf slotCall then some (methodValue "getSlot")
    else none
  toString _ := bodyOf pathCall
  sha256Hex _ := ""

theorem bodyOf_text (d : Document) : d.text = (bodyOf d).toList := String.toList_ofList.symm

theorem written_chars (text : String) (valid : text.toList.all standsPlain = true) :
    (written text valid).chars = text.toList := by
  rw [Literal.chars, written, List.map_map]
  exact List.attach_map_subtype_val text.toList

theorem written_decoded (text : String) (valid : text.toList.all standsPlain = true) :
    (written text valid).decoded = text := by
  rw [Literal.decoded, written_chars, String.ofList_toList]

theorem upwards_decoded : upwards.decoded = "../" := by
  have chars : upwards.chars = '.' :: (written "./" (by decide)).chars := rfl
  rw [Literal.decoded, chars, written_chars]
  rfl

theorem callOf_value (numberOf : NumberText → Number) {method : Literal} {text : String}
    (decodes : method.decoded = text) :
    valueOf numberOf (callOf method).value = methodValue text := by
  simp only [callOf, valueOf, membersOf, Members.insert, written_decoded, decodes, methodValue]

theorem escapedCall_text : escapedCall.text = escapedBody.toList := by decide

theorem escapedBody_clean : AttackPrevention.scanPayload escapedBody = .clean := by decide

theorem path_mentioned : (methodValue "../").Mentions "../" :=
  .member (List.mem_singleton.mpr rfl) .here

theorem path_contained : Contains "../" "../".toList := by decide

theorem callSerde_read : callSerde.fromStr escapedBody = some (methodValue "../") := by
  simp only [Serde.fromStr, callSerde, fromUTF8?_toUTF8, Option.bind_some, true_or, if_true]

theorem callSerde_readsJson (numberOf : NumberText → Number) : ReadsJson callSerde numberOf := by
  intro text value read
  simp only [Serde.fromStr, callSerde, fromUTF8?_toUTF8, Option.bind_some] at read
  split at read
  · rename_i path
    obtain rfl := Option.some.inj read
    rcases path with escaped | plain
    · exact ⟨escapedCall, escaped ▸ escapedCall_text, callOf_value numberOf upwards_decoded⟩
    · exact ⟨pathCall, plain ▸ bodyOf_text _, callOf_value numberOf (written_decoded _ _)⟩
  split at read
  · rename_i slot
    obtain rfl := Option.some.inj read
    exact ⟨slotCall, slot ▸ bodyOf_text _, callOf_value numberOf (written_decoded _ _)⟩
  · cases read

theorem scan_misses_escapes : ¬ ∀ (lib : Serde) (numberOf : NumberText → Number),
    ReadsJson lib numberOf → ∀ body, Sees lib body := by
  intro sees
  exact sees callSerde (fun _ => .int 0) (callSerde_readsJson _) escapedBody escapedBody_clean
    (methodValue "../") callSerde_read "../" path_mentioned "../" (by decide) path_contained

/-- The call with the path written out is blocked, that of `getSlot` has no escapes. -/
theorem escapedBody_unseen :
    ¬ Sees callSerde escapedBody ∧ Sees callSerde (bodyOf pathCall) ∧
      Sees callSerde (bodyOf slotCall) := by
  have exact_when := sees_iff (callSerde_readsJson fun _ => .int 0)
  have blocked : AttackPrevention.scanPayload (bodyOf pathCall) ≠ .clean := by decide
  have plain : (bodyOf slotCall).toList.all (· ≠ '\x5c') = true := by decide
  refine ⟨?_, (exact_when _).mpr (.inl blocked),
    (exact_when _).mpr (.inr (writtenOut_of_plain fun member => ?_))⟩
  · rw [exact_when escapedBody]
    rintro (blocked | writtenOut)
    · exact blocked escapedBody_clean
    · have value := callOf_value (fun _ => Number.int 0) upwards_decoded
      have absent : ¬ Contains "../" escapedCall.text := by
        rw [escapedCall_text]
        exact (scanPayload_clean_iff.mp escapedBody_clean).2.1 "../" (by decide)
      have member : upwards ∈ escapedCall.literals := by
        simp [Document.literals, Document.tokens, escapedCall, callOf, Json.tokens,
          Members.tokens, Token.literal?]
      have contained : Contains "../" upwards.chars := by
        rw [← String.toList_ofList (l := upwards.chars)]
        exact upwards_decoded ▸ path_contained
      refine writtenOut escapedCall escapedCall_text ?_ upwards member ?_ "../" (by decide)
        (hidden_of_contains absent member contained)
      · rw [escapedCall, value]
        exact callSerde_read
      · rw [escapedCall, value, upwards_decoded]
        exact path_mentioned
  · exact absurd rfl (of_decide_eq_true (List.all_eq_true.mp plain _ member))

/-! The nesting limit. -/

/-- What is limited to 20 is the number of brackets, which is at least the depth. -/
theorem blocked_iff_deep_iff (d : Document) (body : String) (text : d.text = body.toList)
    (small : body.utf8ByteSize ≤ 102400)
    (harmless : ∀ pattern ∈ attackPatterns, ¬ Contains pattern body.toList) :
    ((∃ reason, AttackPrevention.scanPayload body = .blocked reason) ↔ 20 < d.depth) ↔
      brackets body.toList ≤ 20 ∨ 20 < d.depth := by
  have few : d.depth ≤ brackets body.toList := text ▸ d.depth_le_brackets
  rw [scanPayload_blocked_iff, Ne, scanPayload_clean_iff, and_iff_right small,
    and_iff_right harmless, Nat.not_le]
  omega

/-! A flat array of empty arrays. -/

def emptyArrays : Nat → Elements
  | 0 => .last noBlank (.emptyArray noBlank) noBlank
  | n + 1 => .cons noBlank (.emptyArray noBlank) noBlank (emptyArrays n)

def wide : Document := ⟨noBlank, .array (emptyArrays 19), noBlank⟩

def wideBody : String := bodyOf wide

theorem wide_text : wide.text = wideBody.toList := bodyOf_text wide

theorem wide_small : wideBody.utf8ByteSize ≤ 102400 := by decide

theorem wide_harmless : ∀ pattern ∈ attackPatterns, ¬ Contains pattern wideBody.toList := by
  decide

theorem wide_brackets : brackets wideBody.toList = 21 := by decide

/-- Arrays with one array each. -/
def nested : Nat → Json
  | 0 => .emptyArray noBlank
  | n + 1 => .array (.last noBlank (nested n) noBlank)

def deep : Document := ⟨noBlank, nested 20, noBlank⟩

def deepBody : String := bodyOf deep

theorem deep_plain : deepBody.utf8ByteSize ≤ 102400 ∧
    ∀ pattern ∈ attackPatterns, ¬ Contains pattern deepBody.toList := by
  decide

theorem slot_plain : AttackPrevention.scanPayload (bodyOf slotCall) = .clean := by
  decide

/-- Both texts have 21 brackets and are blocked; a call has one. -/
theorem wide_not_deep :
    let blocks := fun body => ∃ reason, AttackPrevention.scanPayload body = .blocked reason
    ¬ (blocks wideBody ↔ 20 < wide.depth) ∧ (blocks deepBody ↔ 20 < deep.depth) ∧
      (blocks (bodyOf slotCall) ↔ 20 < slotCall.depth) := by
  intro blocks
  refine ⟨?_, ?_, ?_⟩
  · rw [blocked_iff_deep_iff wide wideBody wide_text wide_small wide_harmless, wide_brackets]
    decide
  · exact (blocked_iff_deep_iff deep deepBody (bodyOf_text deep) deep_plain.1
      deep_plain.2).mpr (.inr (by decide))
  · obtain ⟨small, harmless, few⟩ := scanPayload_clean_iff.mp slot_plain
    exact (blocked_iff_deep_iff slotCall _ (bodyOf_text slotCall) small harmless).mpr (.inl few)

theorem limit_counts_brackets : ¬ ∀ (d : Document) (body : String), d.text = body.toList →
    body.utf8ByteSize ≤ 102400 →
    (∀ pattern ∈ attackPatterns, ¬ Contains pattern body.toList) →
    ((∃ reason, AttackPrevention.scanPayload body = .blocked reason) ↔ 20 < d.depth) := by
  intro deep
  have shallow : ¬ 20 < wide.depth := by decide
  apply shallow
  apply (deep wide wideBody wide_text wide_small wide_harmless).mp
  rw [scanPayload_blocked_iff, Ne, scanPayload_clean_iff, wide_brackets]
  exact fun passed => absurd passed.2.2 (by decide)

end PayloadScan

end Solnet.Daemon
