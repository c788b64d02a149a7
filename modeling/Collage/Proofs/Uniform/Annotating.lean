import Collage.Proofs.Json.Grammar
import Collage.Proofs.Uniform.Relaxing

/-!
# Settings in a comment

What a comment holds is the object that stands in it, whichever of the two notations it is written
in.

An object in the strict notation (`IsObject`) is turned into itself, so that the comment holds what
the strict reader reads, and all that the strict reader takes for an object is one
(`parseObject_of_isObject`).

An object in the relaxed notation (`Remark`) may be marked as a comment in either way, leave
out its braces, have bare keys and texts between single quotes.  The comment holds that object
(`parseObject_text`), with one exception: between single quotes an apostrophe stands behind a
backslash, and a control character as it is.  Neither is good between double quotes, where both
stay as they are, and then the comment holds nothing at all.
-/

namespace Collage
namespace Relaxed

open Json (Note Name Key Margin Blanks depthLimit separator)

/-! ### Where a comment begins and ends -/

/-- How a text is marked as a comment. -/
inductive Style
  /-- not at all -/
  | bare
  /-- by two slashes -/
  | line
  /-- by a slash and a star at either end -/
  | block

/-- A text as a comment. -/
def Style.around : Style → List Char → List Char
  | bare, text => text
  | line, text => '/' :: '/' :: text
  | block, text => '/' :: '*' :: (text ++ ['*', '/'])

/-- Whether a text begins and ends with something that is no blank. -/
def Solid (text : List Char) : Prop :=
  (∃ c rest, text = c :: rest ∧ isBlank c = false) ∧
    ∃ front c, text = front ++ [c] ∧ isBlank c = false

theorem blanks_empty : (∅ : Blanks).text = [] :=
  rfl

theorem trimStart_blanks (blanks : Blanks) {text : List Char} (solid : Solid text)
    (rest : List Char) : trimStart (blanks.text ++ (text ++ rest)) = text ++ rest := by
  obtain ⟨⟨c, more, rfl, visible⟩, _⟩ := solid
  rw [trimStart, dropWhile_blanks, List.cons_append,
    List.dropWhile_cons_of_neg (by simp [visible])]

theorem trimEnd_blanks (blanks : Blanks) {text : List Char} (solid : Solid text)
    (front : List Char) : trimEnd (front ++ (text ++ blanks.text)) = front ++ text := by
  obtain ⟨_, more, c, rfl, visible⟩ := solid
  have space : ∀ d ∈ blanks.text.reverse, isBlank d = true :=
    fun d inside => isBlank_of_isSpace (blanks.all d (List.mem_reverse.mp inside))
  rw [trimEnd, ← List.append_assoc, List.reverse_append, List.dropWhile_append_of_pos space,
    ← List.append_assoc, List.reverse_append, List.reverse_singleton, List.singleton_append,
    List.dropWhile_cons_of_neg (by simp [visible]), List.reverse_cons, List.reverse_reverse]

theorem trim_blanks (before after : Blanks) {text : List Char} (solid : Solid text) :
    trim (before.text ++ (text ++ after.text)) = text := by
  rw [trim, trimStart_blanks before solid]
  exact trimEnd_blanks after solid []

/-- The inside of a comment, without the blanks at its ends. -/
theorem commentBody_around (style : Style) (before after : Blanks) {text : List Char}
    (solid : Solid text) (noComment : text.head? ≠ some '/') :
    commentBody (style.around (before.text ++ (text ++ after.text))) = text := by
  have inside := trim_blanks before after solid
  unfold commentBody
  cases style with
  | bare =>
    rw [Style.around, inside]
    split
    · exact absurd rfl noComment
    · exact absurd rfl noComment
    · rfl
  | line =>
    have whole : trim ('/' :: '/' :: (before.text ++ (text ++ after.text))) =
        '/' :: '/' :: (before.text ++ text) := by
      have ended := trimEnd_blanks after solid ('/' :: '/' :: before.text)
      rw [trim, trimStart, List.dropWhile_cons_of_neg (by decide)]
      simpa using ended
    have start := trim_blanks before ∅ solid
    rw [blanks_empty, List.append_nil] at start
    rw [Style.around, whole]
    exact start
  | block =>
    have closing : ∀ front : List Char, trimEnd (front ++ ['*', '/']) = front ++ ['*', '/'] := by
      intro front
      rw [trimEnd, List.reverse_append]
      change (List.dropWhile isBlank ('/' :: '*' :: front.reverse)).reverse = _
      rw [List.dropWhile_cons_of_neg (by decide)]
      simp
    have whole : ∀ inside : List Char, trim ('/' :: '*' :: (inside ++ ['*', '/'])) =
        '/' :: '*' :: (inside ++ ['*', '/']) := by
      intro inside
      rw [trim, trimStart, List.dropWhile_cons_of_neg (by decide)]
      exact closing ('/' :: '*' :: inside)
    have cut : ∀ inside : List Char,
        withoutEnd? ['*', '/'] (inside ++ ['*', '/']) = some inside := by
      intro inside
      rw [withoutEnd?, List.reverse_append]
      change (withoutStart? ['/', '*'] ('/' :: '*' :: inside.reverse)).map _ = _
      rw [withoutStart?, if_pos rfl, withoutStart?, if_pos rfl, withoutStart?, Option.map_some,
        List.reverse_reverse]
    have stripped := closing (before.text ++ (text ++ after.text))
    rw [Style.around, whole]
    change trim ((withoutEnd? ['*', '/'] (trimEnd _)).getD _) = text
    rw [stripped, cut]
    exact inside

/-! ### What is read -/

/-- The entries of an object, sorted by key, the last of each key. -/
def entries? (json : Json) : Option (List (String × Json)) :=
  match json.canonical with
  | .object entries => some entries
  | _ => none

/-- The object that a text in the strict notation is. -/
def strictObject? (text : List Char) : Option (List (String × Json)) :=
  (Json.read (String.ofList text)).toOption.bind entries?

theorem parseObject_of_body {text body wrapped : List Char} (inside : commentBody text = body)
    (notEmpty : body ≠ [])
    (braces : (if body.head? = some '{' then body else '{' :: body ++ ['}']) = wrapped) :
    parseObject text = strictObject? (quoteKeys wrapped) := by
  unfold parseObject
  rw [inside]
  dsimp only
  rw [if_neg (by simpa using notEmpty), braces, strictObject?]
  cases Json.read (String.ofList (quoteKeys wrapped)) with
  | error fault => rfl
  | ok json => rfl

theorem strictObject?_written (before after : Blanks) (note : Note) :
    strictObject? (quoteKeys (before.text ++ (note.written Name.text ++ after.text))) =
      (note.read? depthLimit).bind entries? := by
  rw [quoteKeys_written, strictObject?, Note.read_written]

/-! ### The ends of a value -/

theorem isBlank_of_isKeyPart {c : Char} (part : isKeyPart c = true) : isBlank c = false := by
  have bounds : (48 ≤ c.toNat ∧ c.toNat ≤ 57) ∨ (65 ≤ c.toNat ∧ c.toNat ≤ 90) ∨
      (97 ≤ c.toNat ∧ c.toNat ≤ 122) ∨ c.toNat = 95 ∨ c.toNat = 36 := by
    simp only [isKeyPart, Char.isAlphanum, Char.isAlpha, Char.isUpper, Char.isLower,
      Char.isDigit, Bool.or_eq_true, Bool.and_eq_true, decide_eq_true_eq, ge_iff_le,
      UInt32.le_iff_toNat_le] at part
    rcases part with (((upper | lower) | digit) | rfl) | rfl
    · exact .inr (.inl upper)
    · exact .inr (.inr (.inl lower))
    · exact .inl digit
    · exact .inr (.inr (.inr (.inl rfl)))
    · exact .inr (.inr (.inr (.inr rfl)))
  simp only [isBlank, Bool.or_eq_false_iff, Bool.and_eq_false_iff, decide_eq_false_iff_not]
  omega

theorem exists_text (name : Name) :
    ∃ c rest, name.text = c :: rest ∧ isBlank c = false ∧ c ≠ '{' ∧ c ≠ '/' := by
  match name with
  | .quoted (.double strokes) => exact ⟨_, _, rfl, by decide, by decide, by decide⟩
  | .quoted (.single content) => exact ⟨_, _, rfl, by decide, by decide, by decide⟩
  | .bare ⟨c :: rest, start, parts⟩ =>
    have part : isKeyPart c = true := parts c List.mem_cons_self
    refine ⟨c, rest, rfl, isBlank_of_isKeyPart part, ?_, ?_⟩ <;>
    · rintro rfl
      exact absurd part (by decide)

theorem solid_cons_append {c d : Char} (first : isBlank c = false) (last : isBlank d = false)
    (inside : List Char) : Solid (c :: (inside ++ [d])) :=
  ⟨⟨c, _, rfl, first⟩, c :: inside, d, rfl, last⟩

theorem solid_quoted (spelling : Json.Spelling) : Solid (Name.quoted spelling).text := by
  cases spelling with
  | double strokes => exact solid_cons_append (by decide) (by decide) _
  | single content => exact solid_cons_append (by decide) (by decide) _

theorem solid_of_visible {text : List Char} (some : text ≠ [])
    (visible : ∀ c ∈ text, isBlank c = false) : Solid text :=
  ⟨⟨text.head some, text.tail, (List.cons_head_tail some).symm, visible _ (List.head_mem some)⟩,
    text.dropLast, text.getLast some, (List.dropLast_append_getLast some).symm,
    visible _ (List.getLast_mem some)⟩

theorem solid_numeral (numeral : Json.Numeral) : Solid numeral.text := by
  obtain ⟨c, rest, shown, _⟩ := numeral.exists_text
  refine solid_of_visible (by rw [shown]; exact List.cons_ne_nil _ _) fun d inside => ?_
  rcases Json.Numeral.mem_text inside with digit | mark
  · exact Diagnostic.isBlank_of_isDigit digit
  · simp only [List.mem_cons, List.not_mem_nil, or_false] at mark
    rcases mark with rfl | rfl | rfl | rfl | rfl <;> decide

/-- A value begins and ends with something that is no blank. -/
theorem solid_written (note : Note) : Solid (note.written Name.text) := by
  match note with
  | .null => exact solid_cons_append (by decide) (by decide) ['u', 'l']
  | .bool false => exact solid_cons_append (by decide) (by decide) ['a', 'l', 's']
  | .bool true => exact solid_cons_append (by decide) (by decide) ['r', 'u']
  | .number numeral => exact solid_numeral numeral
  | .string spelling => exact solid_quoted spelling
  | .array blanks items =>
    rw [Note.written, ← List.append_assoc]
    exact solid_cons_append (by decide) (by decide) _
  | .object blanks entries =>
    rw [Note.written, ← List.append_assoc]
    exact solid_cons_append (by decide) (by decide) _

/-- Entries end with something that is no blank when nothing is behind the last value. -/
theorem exists_last_of_entries : ∀ {entries : List (Key × Note)} (first : Bool),
    entries ≠ [] → (∀ entry ∈ entries.getLast?, entry.1.after.text = []) →
      ∃ front c, Note.writtenEntries Name.text first entries = front ++ [c] ∧ isBlank c = false
  | [], _, notEmpty, _ => absurd rfl notEmpty
  | [(key, note)], first, _, tight => by
    obtain ⟨_, front, c, shown, visible⟩ := solid_written note
    have tight : key.after.text = [] := tight (key, note) rfl
    refine ⟨separator first ++ (key.before.text ++ (key.name.text ++ (key.colon.text ++
      ':' :: (key.lead.text ++ front)))), c, ?_, visible⟩
    rw [Note.writtenEntries, Note.writtenEntries, tight, shown]
    simp
  | (key, note) :: next :: entries, first, _, tight => by
    obtain ⟨front, c, shown, visible⟩ := exists_last_of_entries false
      (List.cons_ne_nil next entries) (by simpa using tight)
    refine ⟨separator first ++ (key.before.text ++ (key.name.text ++ (key.colon.text ++
      ':' :: (key.lead.text ++ (note.written Name.text ++ (key.after.text ++ front)))))), c, ?_,
      visible⟩
    rw [Note.writtenEntries, shown]
    simp

/-! ### Objects in the strict notation -/

/-- Whether a text is an object in the strict notation, blanks around it aside. -/
def IsObject (text : List Char) : Prop :=
  ∃ (before after blanks : Blanks) (entries : List (Key × Note)),
    (Note.object blanks entries).Each Name.Strict ∧
      text = before.text ++ ((Note.object blanks entries).written Name.text ++ after.text)

/-- Only an array or an object is read of something in brackets or braces. -/
theorem exists_object {limit : Nat} {note : Note} {entries : List (String × Json)}
    (read : note.read? limit = some (.object entries)) :
    ∃ blanks entries, note = .object blanks entries := by
  unfold Note.read? at read
  split at read
  · cases note with
    | object blanks entries => exact ⟨blanks, entries, rfl⟩
    | number numeral =>
      obtain ⟨⟨json, rest⟩, found, same⟩ := Option.map_eq_some_iff.mp read
      have flat := Json.depth_readMagnitude (Json.eq_ok_of_toOption found)
      rw [show json = .object entries from same, Json.depth] at flat
      cases flat
    | null => cases read
    | bool value => cases read
    | string spelling =>
      obtain ⟨_, _, same⟩ := Option.map_eq_some_iff.mp read
      cases same
    | array blanks items =>
      obtain ⟨_, _, same⟩ := Option.map_eq_some_iff.mp read
      cases same
  · cases read

/-- Whatever is read as an object is one in the strict notation. -/
theorem isObject_of_read {text : String} {entries : List (String × Json)}
    (read : Json.read text = .ok (.object entries)) : IsObject text.toList := by
  obtain ⟨before, after, note, strict, shown, meant⟩ := Json.exists_of_read read
  obtain ⟨blanks, entries, rfl⟩ := exists_object meant
  exact ⟨before, after, blanks, entries, strict, shown⟩

/-- Turning an object in the strict notation changes nothing, so that a comment around it holds what
the strict reader reads. -/
theorem IsObject.around {text : List Char} (valid : IsObject text) :
    quoteKeys text = text ∧
      ∀ style : Style, parseObject (style.around text) = strictObject? text := by
  obtain ⟨before, after, blanks, entries, strict, rfl⟩ := valid
  generalize note : Note.object blanks entries = object at strict
  have same : object.written Name.text = object.written Name.turned :=
    object.written_congr (strict.imp fun _ strict => (Name.turned_of_strict strict).symm)
  have unchanged (before after : Blanks) :
      quoteKeys (before.text ++ (object.written Name.text ++ after.text)) =
        before.text ++ (object.written Name.text ++ after.text) := by
    rw [quoteKeys_written, ← same]
  have first : (object.written Name.text).head? = some '{' := by
    rw [← note, Note.written, List.head?_cons]
  refine ⟨unchanged before after, fun style => ?_⟩
  have inside := commentBody_around style before after (solid_written object) (by simp [first])
  rw [parseObject_of_body inside (by rintro none; simp [none] at first) (if_pos first)]
  have alone := strictObject?_written ∅ ∅ object
  rw [blanks_empty, List.nil_append, List.append_nil] at alone
  rw [alone, ← strictObject?_written before after, unchanged]

/-- **The relaxed notation goes on where the strict one ends.**  An object in the strict notation is
turned into itself, and a comment around it holds what the strict reader reads; whatever the strict
reader reads as an object is such an object, and the comment holds its entries. -/
theorem parseObject_of_isObject :
    (∀ text : List Char, IsObject text → quoteKeys text = text ∧
      ∀ style : Style, parseObject (style.around text) = strictObject? text) ∧
    ∀ (text : String) (entries : List (String × Json)), Json.read text = .ok (.object entries) →
      quoteKeys text.toList = text.toList ∧
      ∃ kept, (Json.object entries).canonical = .object kept ∧
        ∀ style : Style, parseObject (style.around text.toList) = some kept := by
  refine ⟨fun _ => IsObject.around, fun text entries read => ?_⟩
  obtain ⟨unchanged, held⟩ := (isObject_of_read read).around
  refine ⟨unchanged, _, rfl, fun style => (held style).trans ?_⟩
  rw [strictObject?, String.ofList_toList, read]
  rfl

/-- A colon and an apostrophe inside a key. -/
theorem parseObject_of_isObject_marks :
    IsObject "\x7b\"a:'\":null\x7d".toList ∧
      Json.read "\x7b\"a:'\":null\x7d" = .ok (.object [("a:'", .null)]) ∧
      quoteKeys "\x7b\"a:'\":null\x7d".toList = "\x7b\"a:'\":null\x7d".toList ∧
      parseObject "//\x7b\"a:'\":null\x7d".toList = some [("a:'", .null)] := by
  let strokes : List Json.Stroke :=
    [.plain 'a' (by decide), .plain ':' (by decide), .plain '\'' (by decide)]
  let key : Key := ⟨∅, .quoted (.double strokes), ∅, ∅, ∅⟩
  have valid : IsObject "\x7b\"a:'\":null\x7d".toList :=
    ⟨∅, ∅, ∅, [(key, .null)], ⟨trivial, trivial, trivial⟩, rfl⟩
  have read : Json.read "\x7b\"a:'\":null\x7d" = .ok (.object [("a:'", .null)]) :=
    Json.eq_ok_of_toOption (Note.read_written ∅ ∅ (.object ∅ [(key, .null)]))
  obtain ⟨-, kept, same, held⟩ := parseObject_of_isObject.2 _ _ read
  cases same
  exact ⟨valid, read, (parseObject_of_isObject.1 _ valid).1, held .line⟩

/-! ### Objects in the relaxed notation -/

/-- A comment that holds an object.  The braces may be left out when there are entries; the blanks
at either end are then those of the comment. -/
structure Remark where
  style : Style
  before : Blanks
  braces : Option Blanks
  entries : List (Key × Note)
  after : Blanks
  tight : braces = none → entries ≠ [] ∧
    (∀ entry ∈ entries.head?, entry.1.before.text = []) ∧
      ∀ entry ∈ entries.getLast?, entry.1.after.text = []

namespace Remark

/-- The inside of a comment. -/
def content (remark : Remark) : List Char :=
  match remark.braces with
  | some blanks => (Note.object blanks remark.entries).written Name.text
  | none => Note.writtenEntries Name.text true remark.entries

/-- A comment that holds an object. -/
def text (remark : Remark) : List Char :=
  remark.style.around (remark.before.text ++ (remark.content ++ remark.after.text))

/-- The object that a comment holds. -/
def object? (remark : Remark) : Option Json :=
  (Note.valueEntries? Name.value? remark.entries).map .object

/-- Whether an object can be read when it is turned: it is not nested too deep, and no text
between single quotes needs an escape that the strict notation does not have. -/
def Readable (remark : Remark) : Prop :=
  Note.depthOfEntries remark.entries < depthLimit ∧
    Note.EachEntry Name.Plain remark.entries

theorem head?_content (remark : Remark) : ∃ c rest, remark.content = c :: rest ∧
    isBlank c = false ∧ c ≠ '/' ∧ (c = '{' ↔ remark.braces.isSome = true) := by
  obtain ⟨style, before, braces, entries, after, tight⟩ := remark
  unfold content
  cases braces with
  | some blanks => exact ⟨'{', _, by dsimp only; rw [Note.written], by decide, by decide, by simp⟩
  | none =>
    obtain ⟨notEmpty, start, _⟩ := tight rfl
    cases entries with
    | nil => exact absurd rfl notEmpty
    | cons entry entries =>
      obtain ⟨key, note⟩ := entry
      have start : key.before.text = [] := start (key, note) rfl
      obtain ⟨c, rest, shown, visible, brace, slash⟩ := exists_text key.name
      obtain ⟨more, whole⟩ : ∃ more,
          Note.writtenEntries Name.text true ((key, note) :: entries) = c :: more :=
        ⟨_, by rw [Note.writtenEntries, start, shown]; rfl⟩
      exact ⟨c, more, whole, visible, slash, by simp [brace]⟩

theorem solid_content (remark : Remark) : Solid remark.content := by
  obtain ⟨c, rest, shown, visible, _⟩ := remark.head?_content
  refine ⟨⟨c, rest, shown, visible⟩, ?_⟩
  unfold content
  cases opened : remark.braces with
  | some blanks => exact (solid_written _).2
  | none =>
    obtain ⟨notEmpty, _, stop⟩ := remark.tight opened
    exact exists_last_of_entries true notEmpty stop

/-- The comment is read as the note that stands in it. -/
theorem parseObject_eq (remark : Remark) : ∃ blanks, parseObject remark.text =
    ((Note.object blanks remark.entries).read? depthLimit).bind entries? := by
  obtain ⟨c, rest, shown, _, slash, opened⟩ := remark.head?_content
  have inside := commentBody_around remark.style remark.before remark.after
    remark.solid_content (by rw [shown]; simpa using slash)
  have wrapped : ∃ blanks, (if remark.content.head? = some '{' then remark.content
      else '{' :: remark.content ++ ['}']) =
        (Note.object blanks remark.entries).written Name.text := by
    unfold content at shown ⊢
    cases braces : remark.braces with
    | some blanks =>
      refine ⟨blanks, if_pos ?_⟩
      dsimp only
      rw [Note.written, List.head?_cons]
    | none =>
      rw [braces] at shown opened
      dsimp only at shown
      refine ⟨∅, ?_⟩
      dsimp only
      rw [if_neg (by rw [shown]; simpa using opened), Note.written]
      rfl
  obtain ⟨blanks, wrapped⟩ := wrapped
  have read := strictObject?_written ∅ ∅ (Note.object blanks remark.entries)
  rw [blanks_empty, List.nil_append, List.append_nil] at read
  refine ⟨blanks, ?_⟩
  rw [text, parseObject_of_body inside (by rw [shown]; exact List.cons_ne_nil _ _) wrapped, read]

theorem read?_entries_eq_some_iff (remark : Remark) (blanks : Blanks) (value : Json) :
    (Note.object blanks remark.entries).read? depthLimit = some value ↔
      remark.Readable ∧ remark.object? = some value := by
  rw [Note.read?_eq_some_iff, Note.depth, Note.value?, ← and_assoc]
  rfl

theorem parseObject_of_unreadable {remark : Remark} (unclean : ¬ remark.Readable) :
    parseObject remark.text = none := by
  obtain ⟨blanks, parsed⟩ := remark.parseObject_eq
  rw [parsed]
  cases found : (Note.object blanks remark.entries).read? depthLimit with
  | none => rfl
  | some value =>
    exact absurd ((remark.read?_entries_eq_some_iff blanks value).mp found).1 unclean

/-- **What a comment in the relaxed notation holds**: its object if it is readable, and nothing at
all if it is not. -/
theorem parseObject_text (remark : Remark) {object : Json}
    (means : remark.object? = some object) :
    (remark.Readable → parseObject remark.text = entries? object) ∧
      (¬ remark.Readable → parseObject remark.text = none) := by
  refine ⟨fun clean => ?_, parseObject_of_unreadable⟩
  obtain ⟨blanks, parsed⟩ := remark.parseObject_eq
  rw [parsed, (remark.read?_entries_eq_some_iff blanks object).mpr ⟨clean, means⟩,
    Option.bind_some]

/-- One setting with a bare key, without braces, and a text between single quotes. -/
def saying (content : List Char) : Remark where
  style := .line
  before := ⟨[' '], List.all_eq_true.mp rfl⟩
  braces := none
  entries :=
    [(⟨∅, .bare ⟨['s', 'a', 'y'], rfl, List.all_eq_true.mp rfl⟩, ∅,
      ⟨[' '], List.all_eq_true.mp rfl⟩, ∅⟩, .string (.single content))]
  after := ∅
  tight := fun _ => ⟨List.cons_ne_nil _ _, by rintro entry ⟨⟩; rfl, by rintro entry ⟨⟩; rfl⟩

/-- Double quotes between single ones. -/
theorem parseObject_saying_quotes :
    (saying ['a', ' ', '"']).text = "// say: 'a \"'".toList ∧
      (saying ['a', ' ', '"']).object? = some (.object [("say", .string "a \"")]) ∧
        (saying ['a', ' ', '"']).Readable ∧
          parseObject "// say: 'a \"'".toList = some [("say", .string "a \"")] := by
  have means : (saying ['a', ' ', '"']).object? = some (.object [("say", .string "a \"")]) := rfl
  have readable : (saying ['a', ' ', '"']).Readable := by
    refine ⟨by decide, trivial, ?_, trivial⟩
    change Name.Plain (.quoted (.single ['a', ' ', '"']))
    simp [Name.Plain]
  exact ⟨rfl, means, readable, (parseObject_text _ means).1 readable⟩

/-- An apostrophe between single quotes: nothing is read. -/
theorem parseObject_saying_apostrophe :
    (saying ['i', 't', '\'', 's']).text = "// say: 'it\\'s'".toList ∧
      (saying ['i', 't', '\'', 's']).object? = some (.object [("say", .string "it's")]) ∧
        parseObject "// say: 'it\\'s'".toList ≠ entries? (.object [("say", .string "it's")]) := by
  have means : (saying ['i', 't', '\'', 's']).object? =
    some (.object [("say", .string "it's")]) := rfl
  have unreadable : ¬ (saying ['i', 't', '\'', 's']).Readable := by
    rintro ⟨_, _, plain, _⟩
    change Name.Plain (.quoted (.single ['i', 't', '\'', 's'])) at plain
    simp [Name.Plain] at plain
  have nothing := parseObject_of_unreadable unreadable
  exact ⟨rfl, means, fun same => by cases nothing.symm.trans same⟩

end Remark

end Relaxed
end Collage
