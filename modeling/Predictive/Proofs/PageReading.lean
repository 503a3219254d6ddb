import Predictive.Html.Tree
import Predictive.Proofs.CleanText

/-! Pages are read back. A reader of pages knows tags with their attributes, the characters between
them and the references that stand for single characters. What it reads of a written tree are the
tags and texts of the tree, whatever the texts are; so the rows of a table can be read off the page
that shows it. -/

set_option autoImplicit false

namespace Predictive

namespace Page

open Text

/-! ### References -/

/-- What may follow an ampersand. -/
def referenceNames : List String := ["amp;", "lt;", "gt;", "quot;", "#x27;"]

/-- The text of a page with the characters that its references stand for. -/
def resolve : List Char → List Char
  | '&' :: 'a' :: 'm' :: 'p' :: ';' :: rest => '&' :: resolve rest
  | '&' :: 'l' :: 't' :: ';' :: rest => '<' :: resolve rest
  | '&' :: 'g' :: 't' :: ';' :: rest => '>' :: resolve rest
  | '&' :: 'q' :: 'u' :: 'o' :: 't' :: ';' :: rest => '"' :: resolve rest
  | '&' :: '#' :: 'x' :: '2' :: '7' :: ';' :: rest => '\'' :: resolve rest
  | c :: rest => c :: resolve rest
  | [] => []

def unescape (text : String) : String :=
  String.ofList (resolve text.toList)

/-- No reference is cut off: every ampersand begins one. -/
def HasWholeReferences (text : List Char) : Prop :=
  ∀ after, '&' :: after <:+ text → ∃ name ∈ referenceNames, name.toList <+: after

section
variable {c : Char} {rest : List Char}

theorem resolve_cons (other : c ≠ '&') : resolve (c :: rest) = c :: resolve rest := by
  rw [resolve.eq_6] <;> simp [other]

theorem resolve_escapeHtmlChar (c : Char) (rest : List Char) :
    resolve (escapeHtmlChar "&#x27;" c ++ rest) = c :: resolve rest := by
  unfold escapeHtmlChar
  split_ifs with ampersand less greater double single
  · rw [ampersand]; rfl
  · rw [less]; rfl
  · rw [greater]; rfl
  · rw [double]; rfl
  · rw [single]; rfl
  · exact resolve_cons ampersand

/-- Escaping is undone, whatever the text. -/
theorem unescape_escapeHtml (text : String) : unescape (escapeHtml text) = text := by
  have resolved : ∀ chars : List Char, resolve (chars.flatMap (escapeHtmlChar "&#x27;")) = chars := by
    intro chars
    induction chars with
    | nil => rfl
    | cons c rest ih => rw [List.flatMap_cons, resolve_escapeHtmlChar, ih]
  rw [unescape, escapeHtml, escapeHtmlWith, String.toList_ofList, resolved, String.ofList_toList]

theorem hasWholeReferences_cons : HasWholeReferences (c :: rest) ↔
    (c = '&' → ∃ name ∈ referenceNames, name.toList <+: rest) ∧ HasWholeReferences rest := by
  simp only [HasWholeReferences, List.suffix_cons_iff, List.cons.injEq]
  constructor
  · intro whole
    exact ⟨fun same => whole rest (.inl ⟨same.symm, rfl⟩), fun after inside => whole after (.inr inside)⟩
  · rintro ⟨first, others⟩ after (⟨same, rfl⟩ | inside)
    · exact first same.symm
    · exact others after inside

theorem hasWholeReferences_escapeHtmlChar (c : Char) (others : HasWholeReferences rest) :
    HasWholeReferences (escapeHtmlChar "&#x27;" c ++ rest) := by
  unfold escapeHtmlChar
  split_ifs with ampersand <;> simp [hasWholeReferences_cons, referenceNames, *]

theorem hasWholeReferences_escapeHtml (text : String) :
    HasWholeReferences (escapeHtml text).toList := by
  rw [escapeHtml, escapeHtmlWith, String.toList_ofList]
  induction text.toList with
  | nil => simp [HasWholeReferences]
  | cons c rest ih => exact hasWholeReferences_escapeHtmlChar c ih

end

/-! ### Tags and characters -/

/-- What is met on a page from left to right. -/
inductive Piece where
  | opening (tag : String) (attributes : List (String × String))
  | closing (tag : String)
  | char (c : Char)
  deriving DecidableEq, Repr

/-- The name behind the first blank, up to the sign before its value. -/
def attributeName (text : List Char) : String :=
  String.ofList (((text.dropWhile (· != ' ')).drop 1).takeWhile (· != '='))

/-- Attributes from what stands between quotes and what stands before these. -/
def attributesOf : List (List Char) → List (String × String)
  | name :: value :: rest => (attributeName name, String.ofList value) :: attributesOf rest
  | _ => []

/-- A tag from what stands between its brackets. -/
def readTag : List Char → Piece
  | '/' :: tag => .closing (String.ofList tag)
  | content =>
    .opening (String.ofList (content.takeWhile (· != ' '))) (attributesOf (cutAt '"' content))

/-- What stands between two tags, with the first of them. -/
def readSection (text : List Char) : List Piece :=
  readTag (text.takeWhile (· != '>')) :: ((text.dropWhile (· != '>')).drop 1).map .char

def pieces (page : List Char) : List Piece :=
  match cutAt '<' page with
  | [] => []
  | before :: sections => before.map .char ++ sections.flatMap readSection

/-- An attribute that is read as it is written. -/
def IsPlain (entry : String × String) : Prop :=
  (∀ c ∈ entry.1.toList, c ∉ ['<', '>', '"', '=', ' ']) ∧
    ∀ c ∈ entry.2.toList, c ∉ ['<', '>', '"']

-- by the letters of the text, never by all characters there are
instance : DecidablePred IsPlain :=
  fun _ => @instDecidableAnd _ _ (List.decidableBAll _ _) (List.decidableBAll _ _)

/-- A tag that is read as it is written. -/
def IsLegible (tag : String) (attributes : List (String × String)) : Prop :=
  (∀ c ∈ tag.toList, c ∉ ['<', '>', '"', ' ', '/']) ∧ ∀ entry ∈ attributes, IsPlain entry

instance (tag : String) (attributes : List (String × String)) :
    Decidable (IsLegible tag attributes) :=
  @instDecidableAnd _ _ (List.decidableBAll _ _) (List.decidableBAll _ _)

section
variable {mark c : Char} {text left : List Char} {tag : String}
  {attributes : List (String × String)}

theorem bne_of_absent {signs : List Char} (sign : mark ∈ signs) (absent : ∀ c ∈ text, c ∉ signs) :
    ∀ c ∈ text, (c != mark) = true := by
  intro c member
  simpa using fun same : c = mark => absent c member (same ▸ sign)

theorem cutAt_append_of_absent (absent : mark ∉ left) (right : List Char) :
    cutAt mark (left ++ right) = (cutAt mark right).modifyHead (left ++ ·) := by
  obtain ⟨piece, others, cut⟩ := List.exists_cons_of_ne_nil (cutAt_ne_nil mark right)
  induction left with
  | nil => simp [cut]
  | cons c left ih =>
    obtain ⟨other, absent⟩ : mark ≠ c ∧ mark ∉ left := by simpa using absent
    simp [cutAt, other.symm, ih absent, cut]

theorem pieces_append (absent : '<' ∉ text) (page : List Char) :
    pieces (text ++ page) = text.map .char ++ pieces page := by
  obtain ⟨before, sections, cut⟩ := List.exists_cons_of_ne_nil (cutAt_ne_nil '<' page)
  simp [pieces, cutAt_append_of_absent absent, cut]

theorem pieces_lineBreak (page : List Char) : pieces ('\n' :: page) = .char '\n' :: pieces page := by
  have solid : '<' ∉ ['\n'] := by decide
  exact pieces_append solid page

theorem pieces_tag {content : List Char} (opened : '<' ∉ content) (closed : '>' ∉ content)
    (page : List Char) : pieces ('<' :: (content ++ '>' :: page)) = readTag content :: pieces page := by
  obtain ⟨before, sections, cut⟩ := List.exists_cons_of_ne_nil (cutAt_ne_nil '<' page)
  have apart : '<' ∉ content ++ ['>'] := by simp [opened]
  have whole : content ++ '>' :: page = (content ++ ['>']) ++ page := by simp
  have inside : ∀ c ∈ content, (c != '>') = true := by
    intro c member
    simpa using fun same : c = '>' => closed (same ▸ member)
  have cutWhole : cutAt '<' ('<' :: (content ++ '>' :: page)) =
      [] :: (content ++ '>' :: before) :: sections := by
    rw [whole, cutAt, if_pos rfl, cutAt_append_of_absent apart, cut, List.modifyHead_cons,
      List.append_assoc, List.singleton_append]
  simp [pieces, cutWhole, cut, readSection, List.takeWhile_append_of_pos inside,
    List.dropWhile_append_of_pos inside]

/-- An attribute as characters. -/
theorem toList_attributeText (entry : String × String) :
    (Html.attributeText entry).toList =
      ' ' :: (entry.1.toList ++ '=' :: '"' :: (entry.2.toList ++ ['"'])) := by
  simp [Html.attributeText]

theorem attributesOf_cutAt (plain : ∀ entry ∈ attributes, IsPlain entry)
    (lead : ∀ c ∈ left, c ∉ ['"', ' ']) :
    attributesOf (cutAt '"' (left ++ attributes.flatMap fun entry =>
      (Html.attributeText entry).toList)) = attributes := by
  induction attributes generalizing left with
  | nil =>
    have absent : '"' ∉ left := fun member => lead _ member (by simp)
    simp [cutAt_eq_singleton absent, attributesOf]
  | cons entry rest ih =>
    obtain ⟨⟨name, value⟩, others⟩ := List.forall_mem_cons.mp plain
    have unquoted : '"' ∉ left ++ ' ' :: (entry.1.toList ++ ['=']) := by
      simp only [List.mem_append, List.mem_cons, not_or]
      refine ⟨fun member => lead _ member (by simp), by decide, fun member => name _ member (by simp),
        by decide, by simp⟩
    have closed : '"' ∉ entry.2.toList := fun member => value _ member (by simp)
    have solid : ∀ c ∈ left, (c != ' ') = true := bne_of_absent (by simp) lead
    have unsigned : ∀ c ∈ entry.1.toList, (c != '=') = true := bne_of_absent (by simp) name
    have named : attributeName (left ++ ' ' :: (entry.1.toList ++ ['='])) = entry.1 := by
      simp [attributeName, List.dropWhile_append_of_pos solid, List.takeWhile_append_of_pos unsigned]
    have whole : left ++ (entry :: rest).flatMap (fun entry => (Html.attributeText entry).toList) =
        (left ++ ' ' :: (entry.1.toList ++ ['='])) ++ '"' :: (entry.2.toList ++ '"' ::
          ([] ++ rest.flatMap fun entry => (Html.attributeText entry).toList)) := by
      simp [toList_attributeText]
    rw [whole, cutAt_append_mark, cutAt_append_mark, cutAt_eq_singleton unquoted,
      cutAt_eq_singleton closed]
    simp only [List.singleton_append, attributesOf, named, String.ofList_toList]
    rw [ih others (by simp)]

theorem readTag_opening (legible : IsLegible tag attributes) :
    readTag (tag.toList ++ attributes.flatMap fun entry => (Html.attributeText entry).toList) =
      .opening tag attributes := by
  obtain ⟨letters, plain⟩ := legible
  have unmarked : ∀ c ∈ tag.toList, c ∉ ['"', ' '] := by
    intro c member
    have outside := letters c member
    simp_all
  have solid : ∀ c ∈ tag.toList, (c != ' ') = true := bne_of_absent (by simp) letters
  have named : (tag.toList ++ attributes.flatMap fun entry =>
      (Html.attributeText entry).toList).takeWhile (· != ' ') = tag.toList := by
    rw [List.takeWhile_append_of_pos solid]
    cases attributes <;> simp [toList_attributeText]
  unfold readTag
  split
  · next after begins =>
    -- neither a tag nor an attribute begins with a slash
    cases chars : tag.toList with
    | nil => cases attributes <;> simp [chars, toList_attributeText] at begins
    | cons c rest =>
      have outside := letters c (by simp [chars])
      simp_all
  · rw [named, attributesOf_cutAt plain unmarked, String.ofList_toList]

theorem toList_openTag (tag : String) (attributes : List (String × String)) :
    (Html.openTag tag attributes).toList =
      '<' :: (tag.toList ++ attributes.flatMap (fun entry => (Html.attributeText entry).toList) ++
        ['>']) := by
  simp [Html.openTag, List.flatMap_map, String.toList_join]

theorem IsPlain.not_mem {entry : String × String} (plain : IsPlain entry)
    (bracket : c ∈ ['<', '>']) : c ∉ (Html.attributeText entry).toList := by
  have name : c ∉ entry.1.toList := fun member => plain.1 c member (by simp_all; tauto)
  have value : c ∉ entry.2.toList := fun member => plain.2 c member (by simp_all; tauto)
  have signs : c ∉ [' ', '=', '"'] := by
    rcases List.mem_pair.mp bracket with rfl | rfl <;> decide
  simp_all [toList_attributeText]

theorem IsLegible.not_mem (legible : IsLegible tag attributes) (bracket : c ∈ ['<', '>']) :
    c ∉ tag.toList ++ attributes.flatMap fun entry => (Html.attributeText entry).toList := by
  obtain ⟨letters, plain⟩ := legible
  simp only [List.mem_append, List.mem_flatMap, not_or, not_exists, not_and]
  refine ⟨fun member => letters c member ?_, fun entry member => (plain entry member).not_mem bracket⟩
  rcases List.mem_pair.mp bracket with rfl | rfl <;> simp

theorem pieces_openTag (legible : IsLegible tag attributes) (page : List Char) :
    pieces ((Html.openTag tag attributes).toList ++ page) =
      .opening tag attributes :: pieces page := by
  rw [toList_openTag, List.cons_append, List.append_assoc, List.singleton_append,
    pieces_tag (legible.not_mem (by simp)) (legible.not_mem (by simp)), readTag_opening legible]

theorem pieces_closeTag (legible : IsLegible tag []) (page : List Char) :
    pieces ((Html.closeTag tag).toList ++ page) = .closing tag :: pieces page := by
  have absent {c : Char} (bracket : c ∈ ['<', '>']) : c ∉ '/' :: tag.toList := by
    have outside := legible.not_mem bracket
    rcases List.mem_pair.mp bracket with rfl | rfl <;> simpa using outside
  have written : (Html.closeTag tag).toList = '<' :: ('/' :: tag.toList ++ ['>']) := by
    simp [Html.closeTag]
  rw [written, List.cons_append, List.append_assoc, List.singleton_append,
    pieces_tag (absent (by simp)) (absent (by simp)), readTag, String.ofList_toList]

end

/-! ### Elements -/

/-- An element and what stands between its tags. -/
structure Element where
  tag : String
  attributes : List (String × String)
  content : List Piece
  deriving DecidableEq, Repr

/-- The words of the value of an attribute. -/
def wordsOf (value : String) : List String :=
  (cutAt ' ' value.toList).map String.ofList

namespace Element

def pieces (element : Element) : List Piece :=
  .opening element.tag element.attributes :: (element.content ++ [.closing element.tag])

/-- The characters of an element, as they are written. -/
def text (element : Element) : String :=
  String.ofList <| element.content.filterMap fun piece =>
    match piece with
    | .char c => some c
    | _ => none

/-- The words of the attribute that lists classes. -/
def classes (element : Element) : List String :=
  wordsOf ((element.attributes.lookup "class").getD "")

end Element

/-- The elements with one of the given tags, from left to right. Each ends with the first closing
tag of its own. -/
def elements (tags : List String) : List Piece → List Element
  | [] => []
  | .opening tag attributes :: rest =>
    if tag ∈ tags then
      ⟨tag, attributes, rest.takeWhile (· ≠ .closing tag)⟩ ::
        elements tags (rest.dropWhile (· ≠ .closing tag))
    else elements tags rest
  | .closing _ :: rest => elements tags rest
  | .char _ :: rest => elements tags rest
termination_by pieces => pieces.length
decreasing_by
  · have shorter := (List.dropWhile_suffix (· ≠ Piece.closing tag) (l := rest)).length_le
    simpa using Nat.lt_succ_of_le shorter
  all_goals simp

/-- The rows that stand in the bodies of tables. -/
def rowsOf (pieces : List Piece) : List Element :=
  (elements ["tbody"] pieces).flatMap fun body => elements ["tr"] body.content

def tableRows (page : String) : List Element :=
  rowsOf (pieces page.toList)

def Element.cells (row : Element) : List Element :=
  elements ["th", "td"] row.content

/-- A piece that begins no element with one of the given tags. -/
def Piece.Passes (tags : List String) : Piece → Prop
  | .opening tag _ => tag ∉ tags
  | _ => True

section
variable {tags : List String} {left right : List Piece} {element : Element}

theorem elements_append_of_passes (passed : ∀ piece ∈ left, piece.Passes tags)
    (right : List Piece) : elements tags (left ++ right) = elements tags right := by
  induction left with
  | nil => rfl
  | cons piece rest ih =>
    obtain ⟨first, others⟩ := List.forall_mem_cons.mp passed
    cases piece with
    | opening tag attributes => rw [List.cons_append, elements, if_neg first, ih others]
    | closing tag => rw [List.cons_append, elements, ih others]
    | char c => rw [List.cons_append, elements, ih others]

theorem elements_of_passes (passed : ∀ piece ∈ left, piece.Passes tags) : elements tags left = [] := by
  have none := elements_append_of_passes passed []
  rwa [List.append_nil, elements] at none

theorem elements_element (wanted : element.tag ∈ tags)
    (inside : Piece.closing element.tag ∉ element.content) (right : List Piece) :
    elements tags (element.pieces ++ right) = element :: elements tags right := by
  have unclosed : ∀ piece ∈ element.content, decide (piece ≠ .closing element.tag) = true := by
    intro piece member
    simpa using fun same : piece = .closing element.tag => inside (same ▸ member)
  rw [Element.pieces, List.cons_append, elements, if_pos wanted, List.append_assoc,
    List.takeWhile_append_of_pos unclosed, List.dropWhile_append_of_pos unclosed]
  simp [elements]

/-- Elements on lines of their own are read one by one. -/
theorem elements_lines {found : List Element} (wanted : ∀ element ∈ found, element.tag ∈ tags)
    (inside : ∀ element ∈ found, Piece.closing element.tag ∉ element.content) (right : List Piece) :
    elements tags (found.flatMap (fun element => .char '\n' :: element.pieces) ++ right) =
      found ++ elements tags right := by
  induction found with
  | nil => rfl
  | cons first rest ih =>
    obtain ⟨firstWanted, wanted⟩ := List.forall_mem_cons.mp wanted
    obtain ⟨firstInside, inside⟩ := List.forall_mem_cons.mp inside
    rw [List.flatMap_cons, List.append_assoc, List.cons_append, elements,
      elements_element firstWanted firstInside, ih wanted inside, List.cons_append]

end

end Page

namespace Html

open Page

mutual
/-- The tags of a tree, and the characters of its texts as they are written. -/
def pieces : Html → List Piece
  | .text content => (escapeHtml content).toList.map .char
  | .element tag attributes children =>
    .opening tag attributes :: (piecesOfAll children).flatten ++ [.closing tag]
  | .block tag attributes children =>
    .opening tag attributes ::
      (piecesOfAll children).flatMap (.char '\n' :: ·) ++ [.char '\n', .closing tag]
  | .raw _ => []

def piecesOfAll : List Html → List (List Piece)
  | [] => []
  | first :: rest => first.pieces :: piecesOfAll rest
end

mutual
/-- A tree of texts and of tags that are read as they are written. -/
def Legible : Html → Prop
  | .text _ => True
  | .element tag attributes children => IsLegible tag attributes ∧ LegibleAll children
  | .block tag attributes children => IsLegible tag attributes ∧ LegibleAll children
  | .raw _ => False

def LegibleAll : List Html → Prop
  | [] => True
  | first :: rest => first.Legible ∧ LegibleAll rest
end

theorem piecesOfAll_eq_map (trees : List Html) : piecesOfAll trees = trees.map pieces := by
  induction trees with
  | nil => rfl
  | cons first rest ih => simp only [piecesOfAll, ih, List.map_cons]

theorem legibleAll_iff {trees : List Html} : LegibleAll trees ↔ ∀ tree ∈ trees, tree.Legible := by
  induction trees with
  | nil => simp [LegibleAll]
  | cons first rest ih => simp only [LegibleAll, ih, List.forall_mem_cons]

/-- A block behind its opening tag. -/
def tail (tag : String) (children : List Html) : String :=
  String.join ((renderAll children).map ("\n" ++ ·)) ++ "\n" ++ closeTag tag

theorem render_block (tag : String) (attributes : List (String × String)) (children : List Html) :
    (Html.block tag attributes children).render = openTag tag attributes ++ tail tag children := by
  have lines : ∀ (first last : String) (texts : List String),
      "\n".intercalate (first :: texts ++ [last]) =
        first ++ (String.join (texts.map ("\n" ++ ·)) ++ "\n" ++ last) := by
    intro first last texts
    induction texts generalizing first with
    | nil => simp [String.append_assoc]
    | cons second rest ih =>
      rw [List.cons_append, List.cons_append, String.intercalate_cons_cons, ← List.cons_append, ih]
      simp [String.append_assoc]
  rw [render, lines, tail]

theorem toList_tail (tag : String) (children : List Html) :
    (tail tag children).toList =
      (renderAll children).flatMap (fun text => ['\n'] ++ text.toList) ++
        '\n' :: (closeTag tag).toList := by
  have lineBreak : "\n".toList = ['\n'] := rfl
  simp only [tail, String.toList_append, String.toList_join, List.flatMap_map, lineBreak,
    List.append_assoc, List.singleton_append]

theorem less_not_mem_escapeHtml (text : String) : '<' ∉ (escapeHtml text).toList := by
  rw [escapeHtml, escapeHtmlWith, String.toList_ofList, List.mem_flatMap]
  rintro ⟨c, -, member⟩
  unfold escapeHtmlChar at member
  split_ifs at member with ampersand less <;> simp_all [eq_comm]

mutual
/-- What is read of a written tree are its tags and its texts. -/
theorem pieces_render : ∀ (tree : Html), tree.Legible → ∀ page : List Char,
    Page.pieces (tree.render.toList ++ page) = tree.pieces ++ Page.pieces page
  | .text content, _, page => by
    rw [render, pieces, pieces_append (less_not_mem_escapeHtml content)]
  | .element tag attributes children, legible, page => by
    rw [Legible] at legible
    obtain ⟨opening, inside⟩ := legible
    have closing : IsLegible tag [] := ⟨opening.1, by simp⟩
    have read := pieces_renderAll [] (by simp) children inside
    simp only [List.nil_append, List.map_nil, List.flatMap_id'] at read
    simp [render, pieces, pieces_openTag opening, String.toList_join, read,
      pieces_closeTag closing]
  | .block tag attributes children, legible, page => by
    rw [Legible] at legible
    obtain ⟨opening, inside⟩ := legible
    have closing : IsLegible tag [] := ⟨opening.1, by simp⟩
    have read := pieces_renderAll ['\n'] (by simp) children inside
    simp only [List.singleton_append, List.map_cons, List.map_nil] at read
    rw [render_block, pieces, String.toList_append, List.append_assoc, pieces_openTag opening, toList_tail]
    simp [read, pieces_lineBreak, pieces_closeTag closing]
  | .raw content, legible, _ => legible.elim

theorem pieces_renderAll (lead : List Char) (absent : '<' ∉ lead) :
    ∀ (trees : List Html), LegibleAll trees → ∀ page : List Char,
    Page.pieces ((renderAll trees).flatMap (fun text => lead ++ text.toList) ++ page) =
      (piecesOfAll trees).flatMap (lead.map .char ++ ·) ++ Page.pieces page
  | [], _, page => rfl
  | first :: rest, legible, page => by
    rw [LegibleAll] at legible
    simp only [renderAll, piecesOfAll, List.flatMap_cons, List.append_assoc, pieces_append absent,
      pieces_render first legible.1, pieces_renderAll lead absent rest legible.2]
end

theorem pieces_tail {tag : String} {children : List Html} (closing : IsLegible tag [])
    (inside : LegibleAll children) :
    Page.pieces (tail tag children).toList =
      (children.flatMap fun child => .char '\n' :: child.pieces) ++ [.char '\n', .closing tag] := by
  have read := pieces_renderAll ['\n'] (by simp) children inside
  have ended := pieces_closeTag closing []
  have nothing : Page.pieces [] = [] := rfl
  simp only [List.append_nil, nothing] at ended
  rw [toList_tail, read, pieces_lineBreak, ended, piecesOfAll_eq_map, List.flatMap_map]
  rfl

/-! ### Tables -/

/-- An element with nothing but text in it. -/
structure Line where
  tag : String
  attributes : List (String × String)
  content : String

def Line.html (cell : Line) : Html :=
  .line cell.tag cell.attributes cell.content

def Line.element (cell : Line) : Element :=
  ⟨cell.tag, cell.attributes, (escapeHtml cell.content).toList.map .char⟩

structure Row where
  attributes : List (String × String)
  cells : List Line

namespace Row

def html (row : Row) : Html :=
  .block "tr" row.attributes (row.cells.map Line.html)

def element (row : Row) : Element :=
  ⟨"tr", row.attributes,
    (row.cells.flatMap fun cell => .char '\n' :: cell.element.pieces) ++ [.char '\n']⟩

/-- A row of headings and data that is read as it is written. -/
def IsLegible (row : Row) : Prop :=
  (∀ entry ∈ row.attributes, IsPlain entry) ∧
    ∀ cell ∈ row.cells, cell.tag ∈ ["th", "td"] ∧ ∀ entry ∈ cell.attributes, IsPlain entry

end Row

@[simp] theorem Line.element_text (cell : Line) : cell.element.text = escapeHtml cell.content := by
  simp [Line.element, Element.text, List.filterMap_map]

theorem Line.pieces_html (cell : Line) : cell.html.pieces = cell.element.pieces := by
  simp [Line.html, Html.line, pieces, piecesOfAll, Line.element, Element.pieces]

theorem Row.pieces_html (row : Row) : row.html.pieces = row.element.pieces := by
  simp [Row.html, pieces, piecesOfAll_eq_map, Row.element, Element.pieces, List.flatMap_map,
    Line.pieces_html]

theorem Row.cells_element {row : Row} (legible : row.IsLegible) :
    row.element.cells = row.cells.map Line.element := by
  have wanted : ∀ element ∈ row.cells.map Line.element, element.tag ∈ ["th", "td"] := by
    intro element member
    obtain ⟨cell, inRow, rfl⟩ := List.mem_map.mp member
    exact (legible.2 cell inRow).1
  have inside : ∀ element ∈ row.cells.map Line.element,
      Piece.closing element.tag ∉ element.content := by
    intro element member
    obtain ⟨cell, inRow, rfl⟩ := List.mem_map.mp member
    simp [Line.element]
  have lines := elements_lines wanted inside [.char '\n']
  have ended : elements ["th", "td"] [.char '\n'] = [] :=
    elements_of_passes (by simp [Piece.Passes])
  rwa [List.flatMap_map, ended, List.append_nil] at lines

/-- A row ends where it is closed: the tags inside are those of cells. -/
theorem Row.closing_not_mem_content {row : Row} (legible : row.IsLegible) {tag : String}
    (other : tag ∉ ["th", "td"]) : Piece.closing tag ∉ row.element.content := by
  simp only [Row.element, List.mem_append, List.mem_flatMap, not_or, not_exists, not_and]
  refine ⟨fun cell member found => ?_, by simp⟩
  have same : tag = cell.tag := by simpa [Element.pieces, Line.element] using found
  exact other (same ▸ (legible.2 cell member).1)

theorem Row.legible_html {row : Row} (legible : row.IsLegible) : row.html.Legible := by
  have bare : ∀ tag ∈ ["tr", "th", "td"], Page.IsLegible tag [] := by decide
  refine ⟨⟨(bare "tr" (by simp)).1, legible.1⟩, legibleAll_iff.mpr ?_⟩
  intro cell member
  obtain ⟨line, inRow, rfl⟩ := List.mem_map.mp member
  obtain ⟨tag, plain⟩ := legible.2 line inRow
  exact ⟨⟨(bare line.tag (List.mem_cons_of_mem _ tag)).1, plain⟩, trivial, trivial⟩

theorem Row.passes {row : Row} (legible : row.IsLegible) {piece : Piece}
    (member : piece ∈ row.html.pieces) : piece.Passes ["tbody"] := by
  rw [Row.pieces_html] at member
  simp only [Element.pieces, Row.element, List.mem_cons, List.mem_append, List.mem_flatMap,
    List.not_mem_nil, or_false] at member
  rcases member with rfl | (⟨cell, inRow, rfl | rfl | found | rfl⟩ | rfl) | rfl
  case inr.inl.inl.inr.inl =>
    rcases List.mem_pair.mp (legible.2 cell inRow).1 with same | same <;>
      simp [Piece.Passes, Line.element, same]
  case inr.inl.inl.inr.inr.inl =>
    simp only [Line.element, List.mem_map] at found
    obtain ⟨c, -, rfl⟩ := found
    trivial
  all_goals simp [Piece.Passes]

/-- The rows of the body of a table, whatever stands before and behind it. -/
theorem rowsOf_body {rows : List Row} (legible : ∀ row ∈ rows, row.IsLegible)
    {before after : List Piece} (passedBefore : ∀ piece ∈ before, piece.Passes ["tbody"])
    (passedAfter : ∀ piece ∈ after, piece.Passes ["tbody"]) :
    rowsOf (before ++ (block "tbody" [] (rows.map Row.html)).pieces ++ after) =
      rows.map Row.element := by
  let lines := (rows.map Row.element).flatMap fun row => .char '\n' :: row.pieces
  have body : (block "tbody" [] (rows.map Row.html)).pieces =
      Element.pieces ⟨"tbody", [], lines ++ [.char '\n']⟩ := by
    simp [pieces, piecesOfAll_eq_map, Element.pieces, List.flatMap_map, Row.pieces_html, lines]
  have unclosed : Piece.closing "tbody" ∉ lines ++ [.char '\n'] := by
    simp only [lines, List.flatMap_map, List.mem_append, List.mem_flatMap, not_or, not_exists,
      not_and]
    refine ⟨fun row member found => ?_, by simp⟩
    have other : "tbody" ∉ ["th", "td"] := by decide
    have inside := Row.closing_not_mem_content (legible row member) other
    simp_all [Element.pieces, Row.element]
  have read : elements ["tr"] (lines ++ [.char '\n']) = rows.map Row.element := by
    have ended : elements ["tr"] [.char '\n'] = [] := elements_of_passes (by simp [Piece.Passes])
    rw [elements_lines, ended, List.append_nil]
    · intro element member
      obtain ⟨row, -, rfl⟩ := List.mem_map.mp member
      simp [Row.element]
    · intro element member
      obtain ⟨row, inBody, rfl⟩ := List.mem_map.mp member
      exact Row.closing_not_mem_content (legible row inBody) (by simp [Row.element])
  rw [rowsOf, List.append_assoc, elements_append_of_passes passedBefore, body,
    elements_element (by simp) unclosed, elements_of_passes passedAfter, List.flatMap_cons,
    List.flatMap_nil, List.append_nil, read]

/-- The row of column headings. -/
def headRow (headings : List String) : Row :=
  let heading (classes content : String) : Line :=
    ⟨"th", [("class", classes), ("scope", "col")], content⟩
  match headings with
  | [] => ⟨[], []⟩
  | first :: rest =>
    ⟨[], heading "grammar-table-header grammar-table-header-primary" first ::
      rest.map (heading "grammar-table-header")⟩

theorem headRow_isLegible (headings : List String) : (headRow headings).IsLegible := by
  cases headings with
  | nil => simp [headRow, Row.IsLegible]
  | cons first rest =>
    have plain : ∀ classes ∈ ["grammar-table-header grammar-table-header-primary",
        "grammar-table-header"], ∀ entry ∈ [("class", classes), ("scope", "col")],
        IsPlain entry := by decide
    refine ⟨by simp [headRow], fun cell member => ?_⟩
    rcases List.mem_cons.mp member with rfl | member
    · exact ⟨by simp, plain _ (by simp)⟩
    · obtain ⟨content, -, rfl⟩ := List.mem_map.mp member
      exact ⟨by simp, plain _ (by simp)⟩

theorem table_eq (classes label : String) (headings : List String) (rows : List Html) :
    table classes label headings rows =
      .block "table" [("class", "grammar-table " ++ classes), ("role", "table"), ("aria-label", label)]
        [.block "thead" [] [(headRow headings).html], .block "tbody" [] rows] := by
  cases headings with
  | nil => rfl
  | cons first rest => simp [table, headRow, Row.html, Line.html]

theorem legibleAll_table {rows : List Row} (legible : ∀ row ∈ rows, row.IsLegible)
    (headings : List String) :
    LegibleAll [.block "thead" [] [(headRow headings).html],
      .block "tbody" [] (rows.map Row.html)] := by
  have head : LegibleAll [(headRow headings).html] :=
    ⟨Row.legible_html (headRow_isLegible headings), trivial⟩
  have body : LegibleAll (rows.map Row.html) := by
    refine legibleAll_iff.mpr fun tree member => ?_
    obtain ⟨row, inBody, rfl⟩ := List.mem_map.mp member
    exact Row.legible_html (legible row inBody)
  exact ⟨⟨by decide, head⟩, ⟨by decide, body⟩, trivial⟩

theorem rowsOf_table {rows : List Row} (legible : ∀ row ∈ rows, row.IsLegible)
    (headings : List String) {before after : List Piece}
    (passedBefore : ∀ piece ∈ before, piece.Passes ["tbody"])
    (passedAfter : ∀ piece ∈ after, piece.Passes ["tbody"]) :
    rowsOf (before ++ ([Html.block "thead" [] [(headRow headings).html],
        .block "tbody" [] (rows.map Row.html)].flatMap fun child => .char '\n' :: child.pieces) ++
      after) = rows.map Row.element := by
  have head : ∀ piece ∈ (block "thead" [] [(headRow headings).html]).pieces,
      piece.Passes ["tbody"] := by
    intro piece member
    simp only [pieces, piecesOfAll, List.flatMap_cons, List.flatMap_nil, List.append_nil,
      List.mem_cons, List.mem_append, List.not_mem_nil, or_false] at member
    rcases member with (rfl | rfl | inRow) | rfl | rfl
    case inl.inr.inr => exact Row.passes (headRow_isLegible headings) inRow
    all_goals simp [Piece.Passes]
  have passed : ∀ piece ∈ before ++ .char '\n' ::
      (block "thead" [] [(headRow headings).html]).pieces ++ [.char '\n'],
      piece.Passes ["tbody"] := by
    simp only [List.mem_append, List.mem_cons, List.not_mem_nil, or_false]
    rintro piece ((inBefore | rfl | inHead) | rfl)
    · exact passedBefore piece inBefore
    · trivial
    · exact head piece inHead
    · trivial
  rw [← rowsOf_body legible passed passedAfter]
  simp

/-- The rows of a table are read off the page that shows it. -/
theorem exists_page_table (classes label : String) (headings : List String) {rows : List Row}
    (legible : ∀ row ∈ rows, row.IsLegible) :
    ∃ page, (table classes label headings (rows.map Row.html)).render =
        openTag "table" [("class", "grammar-table " ++ classes), ("role", "table"),
          ("aria-label", label)] ++ page ∧
      tableRows page = rows.map Row.element := by
  refine ⟨_, by rw [table_eq, render_block], ?_⟩
  have start : ∀ piece ∈ ([] : List Piece), piece.Passes ["tbody"] := by simp
  rw [tableRows, pieces_tail (by decide) (legibleAll_table legible headings)]
  exact rowsOf_table legible headings start (by simp [Piece.Passes])

end Html

end Predictive
