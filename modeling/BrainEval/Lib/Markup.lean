import Mathlib

set_option autoImplicit false

namespace Markup

/-- Characters that text spells as entities. Every entity opens with `lead`, itself such a
character, and none is the start of another. -/
structure Entities where
  lead : Char
  table : List (Char × List Char)
  opens : ∀ entry ∈ table, entry.2.head? = some lead
  leads : lead ∈ table.map Prod.fst
  prefixFree : ∀ entry ∈ table, ∀ other ∈ table, entry.2 <+: other.2 → entry = other

namespace Entities

variable (t : Entities)

def encode (c : Char) : List Char :=
  match t.table.find? (·.1 == c) with
  | some entry => entry.2
  | none => [c]

-- Reads the text behind the `skip` characters that an entity still covers.
def decodeFrom : Nat → List Char → List Char
  | _, [] => []
  | skip + 1, _ :: cs => decodeFrom skip cs
  | 0, c :: cs =>
    match t.table.find? fun entry => entry.2.isPrefixOf (c :: cs) with
    | some entry => entry.1 :: decodeFrom (entry.2.length - 1) cs
    | none => c :: decodeFrom 0 cs

def decode (cs : List Char) : List Char := t.decodeFrom 0 cs

variable {t}

theorem decodeFrom_append (front rest : List Char) :
    t.decodeFrom front.length (front ++ rest) = t.decode rest := by
  induction front with
  | nil => rfl
  | cons c front ih => simpa [decodeFrom] using ih

theorem decode_entity {entry : Char × List Char} (listed : entry ∈ t.table) (rest : List Char) :
    t.decode (entry.2 ++ rest) = entry.1 :: t.decode rest := by
  obtain ⟨body, spelled⟩ : ∃ body, entry.2 = t.lead :: body :=
    List.head?_eq_some_iff.mp (t.opens entry listed)
  have read : (t.table.find? fun other => other.2.isPrefixOf (t.lead :: (body ++ rest))) =
      some entry := by
    cases found : t.table.find? fun other => other.2.isPrefixOf (t.lead :: (body ++ rest)) with
    | none =>
      have missed := List.find?_eq_none.mp found entry listed
      simp [spelled] at missed
    | some other =>
      have start := List.find?_some found
      rw [List.isPrefixOf_iff_prefix, ← List.cons_append, ← spelled] at start
      have member := List.mem_of_find?_eq_some found
      rcases List.prefix_or_prefix_of_prefix start (List.prefix_append _ _) with short | long
      · rw [t.prefixFree other member entry listed short]
      · rw [t.prefixFree entry listed other member long]
  rw [spelled, List.cons_append, decode, decodeFrom, read]
  simp only [spelled, List.length_cons, Nat.add_one_sub_one, decodeFrom_append]

theorem decode_cons {c : Char} (other : c ≠ t.lead) (rest : List Char) :
    t.decode (c :: rest) = c :: t.decode rest := by
  have missed : (t.table.find? fun entry => entry.2.isPrefixOf (c :: rest)) = none := by
    rw [List.find?_eq_none]
    intro entry listed start
    obtain ⟨body, spelled⟩ := List.head?_eq_some_iff.mp (t.opens entry listed)
    rw [List.isPrefixOf_iff_prefix, spelled] at start
    exact other (List.cons_prefix_cons.mp start).1.symm
  rw [decode, decodeFrom, missed]
  rfl

theorem decode_encode (s : List Char) : t.decode (s.flatMap t.encode) = s := by
  induction s with
  | nil => rfl
  | cons c s ih =>
    rw [List.flatMap_cons, encode]
    cases found : t.table.find? (·.1 == c) with
    | none =>
      have other : c ≠ t.lead := by
        rintro rfl
        obtain ⟨entry, listed, leads⟩ := List.mem_map.mp t.leads
        have missed := List.find?_eq_none.mp found entry listed
        simp [leads] at missed
      simp only [List.singleton_append]
      rw [decode_cons other, ih]
    | some entry =>
      have key : entry.1 = c := by simpa using List.find?_some found
      simp only
      rw [decode_entity (List.mem_of_find?_eq_some found), ih, key]

end Entities

/-- What goes to a page: markup as it stands, and text to be escaped. -/
inductive Piece where
  | markup (s : String)
  | text (s : String)
  deriving DecidableEq

namespace Piece

-- The markup of a piece; a text is blank here.
def shape : Piece → Option String
  | .markup s => some s
  | .text _ => none

-- The text of a piece before it is escaped.
def content : Piece → Option String
  | .markup _ => none
  | .text s => some s

variable (escape : String → String)

def output : Piece → String
  | .markup s => s
  | .text s => escape s

end Piece

variable (escape : String → String)

def page (pieces : List Piece) : String :=
  String.ofList (pieces.flatMap fun piece => (piece.output escape).toList)

def texts (pieces : List Piece) : List String := pieces.filterMap Piece.content

section Texts

variable (front back : List Piece)

@[simp] theorem texts_append : texts (front ++ back) = texts front ++ texts back :=
  List.filterMap_append

@[simp] theorem texts_nil : texts [] = [] := rfl

@[simp] theorem texts_markup (s : String) : texts (.markup s :: back) = texts back := rfl

@[simp] theorem texts_text (s : String) : texts (.text s :: back) = s :: texts back := rfl

@[simp] theorem texts_flatten (parts : List (List Piece)) :
    texts parts.flatten = parts.flatMap texts := by
  rw [texts, List.filterMap_flatten, List.flatMap_def]
  rfl

theorem texts_flatMap {α : Type} (items : List α) (part : α → List Piece) :
    texts (items.flatMap part) = items.flatMap fun item => texts (part item) := by
  rw [List.flatMap_def, texts_flatten, List.flatMap_map]

end Texts

/-- A template with its slots filled in order. -/
def fill : List (Option String) → List String → List Char
  | [], _ => []
  | some markup :: template, filling => markup.toList ++ fill template filling
  | none :: template, text :: filling => text.toList ++ fill template filling
  | none :: template, [] => fill template []

theorem page_eq_fill (pieces : List Piece) :
    (page escape pieces).toList = fill (pieces.map Piece.shape) ((texts pieces).map escape) := by
  rw [page, String.toList_ofList]
  induction pieces with
  | nil => rfl
  | cons piece pieces ih =>
    rw [List.flatMap_cons, ih]
    cases piece with
    | markup s => simp [Piece.output, Piece.shape, fill]
    | text s => simp [Piece.output, Piece.shape, fill]

variable {escape} {loud : Char → Bool}

theorem filter_page (quiet : ∀ s, ∀ c ∈ (escape s).toList, loud c = false)
    {pieces pieces' : List Piece} (same : pieces.map Piece.shape = pieces'.map Piece.shape) :
    (page escape pieces).toList.filter loud = (page escape pieces').toList.filter loud := by
  have shaped : ∀ pieces : List Piece, (page escape pieces).toList.filter loud =
      (pieces.map Piece.shape).flatMap fun shape => (shape.getD "").toList.filter loud := by
    intro pieces
    rw [page, String.toList_ofList, List.filter_flatMap, List.flatMap_map]
    apply congrArg (List.flatMap · pieces)
    funext piece
    cases piece with
    | markup s => rfl
    | text s =>
      have none : (escape s).toList.filter loud = [] := by
        rw [List.filter_eq_nil_iff]
        intro c member
        simp [quiet s c member]
      simp [Piece.output, Piece.shape, none]
  rw [shaped, shaped, same]

end Markup
