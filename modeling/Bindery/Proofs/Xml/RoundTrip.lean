/-
# Documents are read back

Between the written element and the tree that is read from it stands a list of pieces: the tags of the
element, each with the text that follows it.  Written one after the other the pieces are the document
(`flatMap_pieces`), cut at its opening brackets the document falls into the pieces again
(`readPiece_written`), and taken one by one they put the element, laid out on its lines, into the
innermost open element (`foldlM_pieces`).  So a legal element with names for its names is read from its
document, and but for its layout the tree is the one that it stands for (`readsBack_document`).
-/
import Bindery.Proofs.Success
import Bindery.Proofs.Xml.Tag

namespace Bindery.Xml

/-! ## 1. Elements with names -/

/-- An element all of whose tags have names for their names, and no attribute twice. -/
inductive Element.WellNamed : Element → Prop where
  | leaf {name : String} {attributes : List Attribute} {text : String}
      (htag : IsTag name attributes) : WellNamed (.leaf name attributes text)
  | branch {name : String} {attributes : List Attribute} {children : List Element}
      (htag : IsTag name attributes) (hchildren : ∀ child ∈ children, WellNamed child) :
      WellNamed (.branch name attributes children)

/-! ## 2. The pieces of a document -/

/-- The end of a line, and the margin of the next. -/
def lineBreak (level : Nat) : List Char := '\n' :: margin level

namespace Element

mutual

/-- The tags of an element at a level, each with the text that follows it; `after` follows the last. -/
def pieces (level : Nat) (after : List Char) : Element → List (Tag × List Char)
  | leaf name attributes text => [(.opening name attributes, text.toList), (.closing name, after)]
  | branch name attributes [] => [(.whole name attributes, after)]
  | branch name attributes (first :: rest) =>
    (.opening name attributes, lineBreak (level + 1)) ::
      (allPieces (level + 1) (lineBreak level) (first :: rest) ++ [(.closing name, after)])

/-- The tags of neighbouring elements at a level; `after` follows the last of them. -/
def allPieces (level : Nat) (after : List Char) : List Element → List (Tag × List Char)
  | [] => []
  | element :: rest =>
    pieces level (if rest.isEmpty then after else lineBreak level) element ++ allPieces level after rest

end

mutual

/-- The tree of an element that is laid out on lines, from a level on. -/
def laidOut (level : Nat) : Element → Node
  | leaf name attributes text => .element name attributes (textNodes text.toList)
  | branch name attributes [] => .element name attributes []
  | branch name attributes (first :: rest) =>
    .element name attributes
      (textNodes (lineBreak (level + 1)) ++ allLaidOut (level + 1) (lineBreak level) (first :: rest))

/-- The trees of neighbouring elements, and the texts that follow them. -/
def allLaidOut (level : Nat) (after : List Char) : List Element → List Node
  | [] => []
  | element :: rest =>
    laidOut level element :: textNodes (if rest.isEmpty then after else lineBreak level) ++
      allLaidOut level after rest

end

end Element

/-- A piece as it is written after its opening bracket. -/
def written (piece : Tag × List Char) : List Char :=
  piece.1.print ++ '>' :: piece.2.flatMap escapeInText

theorem written_mk (item : Tag) (text : List Char) :
    written (item, text) = item.print ++ '>' :: text.flatMap escapeInText := rfl

/-- Nothing in a line break has to be escaped. -/
theorem escape_lineBreak (level : Nat) :
    (lineBreak level).flatMap escapeInText = '\n' :: margin level := by
  have hmargin : ∀ n : Nat, (List.replicate n ' ').flatMap escapeInText = List.replicate n ' ' := by
    intro n
    induction n with
    | zero => rfl
    | succ n ih =>
      rw [List.replicate_succ, List.flatMap_cons, ih]
      rfl
  rw [lineBreak, List.flatMap_cons, margin, hmargin]
  rfl

/-! ### The written form -/

section Written

open Element

mutual

/-- The pieces of an element, written one after the other, are its lines; what follows the last piece
ends the last line. -/
theorem flatMap_pieces (level : Nat) {after tail : List Char}
    (hafter : after.flatMap escapeInText = '\n' :: tail) : ∀ element : Element,
    margin level ++ (pieces level after element).flatMap (fun piece => '<' :: written piece) =
      print level element ++ tail
  | .leaf name attributes text => by
    simp only [pieces, print, written_mk, Tag.print, endTag, List.flatMap_cons, List.flatMap_nil,
      hafter, List.append_assoc, List.cons_append, List.nil_append, List.append_nil]
  | .branch name attributes [] => by
    simp only [pieces, print, written_mk, Tag.print, List.flatMap_cons, List.flatMap_nil, hafter,
      List.append_assoc, List.cons_append, List.nil_append, List.append_nil]
  | .branch name attributes (first :: rest) => by
    have ih := flatMap_allPieces (level + 1) (escape_lineBreak level) (first :: rest)
      (List.cons_ne_nil first rest)
    simp only [pieces, print, written_mk, Tag.print, endTag, List.flatMap_cons, List.flatMap_append,
      List.flatMap_nil, hafter, escape_lineBreak, List.append_assoc, List.cons_append,
      List.nil_append, List.append_nil]
    rw [← List.append_assoc (margin (level + 1)), ih, List.append_assoc]

/-- The same for neighbouring elements; there has to be one for the line to end. -/
theorem flatMap_allPieces (level : Nat) {after tail : List Char}
    (hafter : after.flatMap escapeInText = '\n' :: tail) : ∀ elements : List Element,
    elements ≠ [] →
    margin level ++ (allPieces level after elements).flatMap (fun piece => '<' :: written piece) =
      printAll level elements ++ tail
  | [], h => absurd rfl h
  | element :: rest, _ => by
    by_cases hrest : rest = []
    · have ih := flatMap_pieces level hafter element
      subst hrest
      rw [allPieces, printAll, List.isEmpty_nil, if_pos rfl, allPieces, printAll, List.append_nil,
        List.append_nil, ih]
    · have ihElement := flatMap_pieces level (escape_lineBreak level) element
      have ihRest := flatMap_allPieces level hafter rest hrest
      have hmore : ¬rest.isEmpty = true := by simpa using hrest
      rw [allPieces, printAll, if_neg hmore, List.flatMap_append, ← List.append_assoc, ihElement,
        List.append_assoc, ihRest, List.append_assoc]

end

end Written

/-! ### The pieces in the text -/

/-- A piece that can be written: its tag can, and XML allows its text. -/
def IsWritablePiece (piece : Tag × List Char) : Prop :=
  piece.1.IsWritable ∧ piece.2.all isLegal = true

theorem legal_lineBreak (level : Nat) : (lineBreak level).all isLegal = true := by
  rw [lineBreak, List.all_cons, margin, List.all_replicate]
  simp [isLegal]

namespace Element

mutual

/-- The pieces of a legal element with names for its names can be written. -/
theorem writable_pieces (level : Nat) {after : List Char} (hafter : after.all Xml.isLegal = true) :
    ∀ {element : Element}, element.WellNamed → element.isLegal = true →
      ∀ piece ∈ pieces level after element, IsWritablePiece piece
  | .leaf name attributes text, .leaf htag, hlegal => by
    obtain ⟨hvalues, htext⟩ := isLegal_leaf.mp hlegal
    simp only [pieces, List.forall_mem_cons]
    exact ⟨⟨⟨htag, hvalues⟩, htext⟩, ⟨htag.name, hafter⟩, fun _ h => nomatch h⟩
  | .branch name attributes [], .branch htag _, hlegal => by
    simp only [pieces, List.forall_mem_cons]
    exact ⟨⟨⟨htag, (isLegal_branch.mp hlegal).1⟩, hafter⟩, fun _ h => nomatch h⟩
  | .branch name attributes (first :: rest), .branch htag hchildren, hlegal => by
    obtain ⟨hvalues, hlegals⟩ := isLegal_branch.mp hlegal
    have ih := writable_allPieces (level + 1) (legal_lineBreak level) hchildren hlegals
    simp only [pieces, List.forall_mem_cons, List.forall_mem_append]
    exact ⟨⟨⟨htag, hvalues⟩, legal_lineBreak _⟩, ih, ⟨htag.name, hafter⟩, fun _ h => nomatch h⟩

theorem writable_allPieces (level : Nat) {after : List Char} (hafter : after.all Xml.isLegal = true) :
    ∀ {elements : List Element}, (∀ element ∈ elements, element.WellNamed) →
      (∀ element ∈ elements, element.isLegal = true) →
      ∀ piece ∈ allPieces level after elements, IsWritablePiece piece
  | [], _, _ => fun _ h => nomatch h
  | element :: rest, hnamed, hlegal => by
    rw [List.forall_mem_cons] at hnamed hlegal
    have hgap : (if rest.isEmpty then after else lineBreak level).all Xml.isLegal = true := by
      split
      · exact hafter
      · exact legal_lineBreak level
    rw [allPieces, List.forall_mem_append]
    exact ⟨writable_pieces level hgap hnamed.1 hlegal.1,
      writable_allPieces level hafter hnamed.2 hlegal.2⟩

end

/-- The last piece of an element is the one before what follows it. -/
theorem getLast?_pieces (level : Nat) (after : List Char) (element : Element) :
    ∃ item, (pieces level after element).getLast? = some (item, after) := by
  cases element with
  | leaf name attributes text => exact ⟨.closing name, rfl⟩
  | branch name attributes children =>
    cases children with
    | nil => exact ⟨.whole name attributes, rfl⟩
    | cons first rest =>
      refine ⟨.closing name, ?_⟩
      rw [pieces, ← List.cons_append, List.getLast?_concat]

end Element

theorem plain_escape {text : List Char} (h : text.all isLegal = true) :
    (text.flatMap escapeInText).all isPlain = true :=
  all_isPlain_flatMap (fun _ hc => all_isPlain_escapeInText hc) h

theorem not_mem_of_plain {chars : List Char} (h : chars.all isPlain = true) {c : Char}
    (hc : isPlain c = false) : c ∉ chars := by
  intro hmem
  rw [List.all_eq_true.mp h c hmem] at hc
  cases hc

section Piece

variable {piece : Tag × List Char} (h : IsWritablePiece piece)

include h

/-- The first closing bracket of a piece ends its tag. -/
theorem cut_written : (written piece).takeWhile (· ≠ '>') = piece.1.print ∧
    (written piece).dropWhile (· ≠ '>') = '>' :: piece.2.flatMap escapeInText := by
  have hinside : ∀ c ∈ piece.1.print, decide (c ≠ '>') = true := by
    intro c hc
    rw [decide_eq_true_eq]
    rintro rfl
    exact not_mem_of_plain (Tag.plain_print h.1) (by decide) hc
  rw [written, List.takeWhile_append_of_pos hinside, List.dropWhile_append_of_pos hinside]
  simp

/-- **A piece is read as it was written.** -/
theorem readPiece_written : readPiece (written piece) = some piece := by
  obtain ⟨htake, hdrop⟩ := cut_written h
  have hclose : (piece.2.flatMap escapeInText).contains '>' = false := by
    have := not_mem_of_plain (plain_escape h.2) (c := '>') (by decide)
    simpa using this
  simp only [readPiece, htake, hdrop, Tag.read_print h.1, hclose, readText_escape]
  rfl

/-- Besides the brackets that close it, a piece has only legal characters, and among them no opening
bracket and no carriage return. -/
theorem plain_written : ∀ c ∈ written piece, c = '>' ∨ isPlain c = true := by
  intro c hc
  rw [written, List.mem_append, List.mem_cons] at hc
  rcases hc with hc | rfl | hc
  · exact .inr (List.all_eq_true.mp (Tag.plain_print h.1) c hc)
  · exact .inl rfl
  · exact .inr (List.all_eq_true.mp (plain_escape h.2) c hc)

theorem not_mem_written {c : Char} (hclose : c ≠ '>') (hplain : isPlain c = false) :
    c ∉ written piece := by
  intro hc
  rcases plain_written h c hc with rfl | hc
  · exact hclose rfl
  · rw [hplain] at hc
    cases hc

end Piece

theorem mapM_readPiece {pieces : List (Tag × List Char)}
    (h : ∀ piece ∈ pieces, IsWritablePiece piece) :
    (pieces.map written).mapM readPiece = some pieces := by
  rw [mapM_eq_some_iff, List.forall₂_map_left_iff, List.forall₂_same]
  exact fun piece hpiece => readPiece_written (h piece hpiece)

/-- A text of pieces is cut at its opening brackets, for there are no others. -/
theorem splitOn_pieces : ∀ {front : List Char} {pieces : List (List Char)}, '<' ∉ front →
    (∀ piece ∈ pieces, '<' ∉ piece) →
    (front ++ pieces.flatMap ('<' :: ·)).splitOn '<' = front :: pieces
  | front, [], hfront, _ => by
    rw [List.flatMap_nil, List.append_nil, List.splitOn_eq_singleton hfront]
  | front, piece :: pieces, hfront, hpieces => by
    rw [List.forall_mem_cons] at hpieces
    rw [List.flatMap_cons, List.cons_append, List.splitOn_append_cons_self,
      List.splitOn_eq_singleton hfront, splitOn_pieces hpieces.1 hpieces.2]
    rfl

/-- Without carriage returns the ends of lines are plain already. -/
theorem plainLines_eq_self : ∀ {text : List Char}, '\r' ∉ text → Text.plainLines text = text
  | [], _ => rfl
  | c :: rest, h => by
    rw [List.mem_cons, not_or] at h
    rw [Text.plainLines, if_neg (Ne.symm h.1), plainLines_eq_self h.2]
    rintro other rfl
    exact absurd rfl h.1

/-! ## 3. The pieces on the stack -/

theorem addContent_append (front back : List Node) (stack : List OpenElement) :
    addContent front (addContent back stack) = addContent (front ++ back) stack := by
  cases stack with
  | nil => rfl
  | cons inner outer => simp [addContent]

theorem addContent_ne_nil {nodes : List Node} {stack : List OpenElement} (h : stack ≠ []) :
    addContent nodes stack ≠ [] := by
  cases stack with
  | nil => exact h
  | cons inner outer => exact List.cons_ne_nil _ _

theorem reverse_textNodes (text : List Char) : (textNodes text).reverse = textNodes text := by
  unfold textNodes
  split <;> rfl

namespace Element

mutual

/-- The pieces of an element add its tree, and the text after it, to the innermost open element. -/
theorem foldlM_pieces {level : Nat} {after : List Char} {rest : List (Tag × List Char)} :
    ∀ (element : Element) {stack : List OpenElement}, stack ≠ [] →
      (pieces level after element ++ rest).foldlM readStep stack =
        rest.foldlM readStep (addContent (textNodes after ++ [laidOut level element]) stack)
  | .leaf name attributes text, stack, hstack => by
    simp [pieces, readStep, laidOut, hstack, reverse_textNodes]
  | .branch name attributes [], stack, hstack => by
    simp [pieces, readStep, laidOut]
  | .branch name attributes (first :: others), stack, hstack => by
    -- The first tag opens the element, the children go into it, and its last tag takes it off again.
    rw [pieces, List.cons_append, List.append_assoc, List.foldlM_cons]
    simp only [readStep, Option.bind_eq_bind, Option.bind_some]
    rw [foldlM_allPieces (first :: others) (List.cons_ne_nil _ _), List.cons_append, List.foldlM_cons]
    simp [readStep, addContent, laidOut, hstack, reverse_textNodes]

theorem foldlM_allPieces {level : Nat} {after : List Char} {rest : List (Tag × List Char)} :
    ∀ (elements : List Element) {stack : List OpenElement}, stack ≠ [] →
      (allPieces level after elements ++ rest).foldlM readStep stack =
        rest.foldlM readStep (addContent (allLaidOut level after elements).reverse stack)
  | [], stack, _ => by
    cases stack <;> rfl
  | element :: others, stack, hstack => by
    rw [allPieces, List.append_assoc, foldlM_pieces element hstack,
      foldlM_allPieces others (addContent_ne_nil hstack), addContent_append, allLaidOut,
      List.reverse_append, List.reverse_cons, reverse_textNodes]

end

/-! ## 4. The layout -/

theorem blank_lineBreak (level : Nat) : (lineBreak level).all isBlank = true := by
  rw [lineBreak, List.all_cons, margin, List.all_replicate]
  simp [isBlank]

theorem exists_laidOut_eq (level : Nat) (element : Element) :
    ∃ name attributes content, laidOut level element = .element name attributes content := by
  cases element with
  | leaf name attributes text => exact ⟨_, _, _, rfl⟩
  | branch name attributes children => cases children <;> exact ⟨_, _, _, rfl⟩

theorem isElement_laidOut (level : Nat) (element : Element) :
    (laidOut level element).isElement = true := by
  obtain ⟨name, attributes, content, h⟩ := exists_laidOut_eq level element
  rw [h, Node.isElement]

theorem isBlankText_laidOut (level : Nat) (element : Element) :
    (laidOut level element).isBlankText = false := by
  obtain ⟨name, attributes, content, h⟩ := exists_laidOut_eq level element
  rw [h, Node.isBlankText]

/-- Blanks beside elements are layout. -/
theorem allWithoutLayout_blank {text : List Char} {rest : List Node} (h : text.all isBlank = true) :
    Node.allWithoutLayout true (textNodes text ++ rest) = Node.allWithoutLayout true rest := by
  unfold textNodes
  split
  · rfl
  · have hblank : (Node.text (String.ofList text)).isBlankText = true := by
      rw [Node.isBlankText, String.toList_ofList]
      exact h
    rw [List.singleton_append, Node.allWithoutLayout, hblank]
    rfl

mutual

/-- But for the layout, an element laid out on lines is the tree that the element stands for. -/
theorem withoutLayout_laidOut (level : Nat) : ∀ element : Element,
    (laidOut level element).withoutLayout = element.toNode
  | .leaf name attributes text => by
    rw [laidOut, toNode, textNodes]
    by_cases h : text = ""
    · subst h
      rfl
    · have hlist : text.toList ≠ [] := by
        rwa [ne_eq, String.toList_eq_nil_iff]
      rw [if_neg h, if_neg hlist, String.ofList_toList]
      rfl
  | .branch name attributes [] => rfl
  | .branch name attributes (first :: rest) => by
    have hany : (textNodes (lineBreak (level + 1)) ++
        allLaidOut (level + 1) (lineBreak level) (first :: rest)).any Node.isElement = true := by
      rw [allLaidOut, List.any_append, List.cons_append, List.any_cons, isElement_laidOut,
        Bool.true_or, Bool.or_true]
    rw [laidOut, toNode, Node.withoutLayout, hany, allWithoutLayout_blank (blank_lineBreak _),
      withoutLayout_allLaidOut (level + 1) (blank_lineBreak level)]

theorem withoutLayout_allLaidOut (level : Nat) {after : List Char} (hafter : after.all isBlank = true) :
    ∀ elements : List Element,
      Node.allWithoutLayout true (allLaidOut level after elements) = allToNodes elements
  | [] => rfl
  | element :: rest => by
    have hgap : (if rest.isEmpty then after else lineBreak level).all isBlank = true := by
      split
      · exact hafter
      · exact blank_lineBreak level
    rw [allLaidOut, allToNodes, List.cons_append, Node.allWithoutLayout, isBlankText_laidOut,
      allWithoutLayout_blank hgap, withoutLayout_allLaidOut level hafter rest,
      withoutLayout_laidOut level element]
    rfl

end

/-! ## 5. Documents -/

/-- The pieces of a document; its last line ends after the root. -/
def documentPieces (root : Element) : List (Tag × List Char) :=
  pieces 0 ['\n'] root

/-- What follows the declaration in a document. -/
def markup (root : Element) : List Char :=
  (root.documentPieces.map written).flatMap ('<' :: ·)

theorem toList_document (root : Element) :
    root.document.toList = declaration.toList ++ root.markup := by
  have hafter : ['\n'].flatMap escapeInText = '\n' :: [] := rfl
  have hprint := flatMap_pieces 0 hafter root
  rw [List.append_nil] at hprint
  rw [document, String.toList_append, String.toList_ofList, ← hprint, markup, List.flatMap_map]
  rfl

theorem isPrefixOf_document (root : Element) :
    declaration.toList.isPrefixOf root.document.toList = true := by
  rw [toList_document, List.isPrefixOf_iff_prefix]
  exact List.prefix_append _ _

theorem drop_document (root : Element) :
    root.document.toList.drop declaration.length = root.markup := by
  rw [toList_document, ← String.length_toList, List.drop_left]

/-- The pieces of a document leave the document alone open, with the root in it. -/
theorem foldlM_documentPieces (root : Element) :
    root.documentPieces.foldlM readStep [⟨"", [], []⟩] =
      some [⟨"", [], [.text "\n", laidOut 0 root]⟩] := by
  rw [← List.append_nil root.documentPieces]
  exact foldlM_pieces root (List.cons_ne_nil _ _)

section Legal

variable {root : Element} (hnamed : root.WellNamed) (hlegal : root.isLegal = true)

include hnamed hlegal

theorem writable_documentPieces : ∀ piece ∈ root.documentPieces, IsWritablePiece piece :=
  writable_pieces 0 (by decide) hnamed hlegal

/-- Besides its brackets, a document has plain characters only. -/
theorem plain_markup : ∀ c ∈ root.markup, c = '<' ∨ c = '>' ∨ isPlain c = true := by
  intro c hc
  simp only [markup, List.mem_flatMap, List.mem_map] at hc
  obtain ⟨chars, ⟨piece, hpiece, rfl⟩, hc⟩ := hc
  rcases List.mem_cons.mp hc with rfl | hc
  · exact .inl rfl
  · exact .inr (plain_written (writable_documentPieces hnamed hlegal piece hpiece) c hc)

/-- XML allows all characters of the document. -/
theorem isLegalText_document : isLegalText root.document = true := by
  rw [isLegalText, toList_document, List.all_append, Bool.and_eq_true]
  refine ⟨by decide, List.all_eq_true.mpr fun c hc => ?_⟩
  rcases plain_markup hnamed hlegal c hc with rfl | rfl | hplain
  · decide
  · decide
  · rw [isPlain, Bool.and_eq_true] at hplain
    exact hplain.2

/-- Reading changes no end of a line in a document. -/
theorem return_not_mem_markup : '\r' ∉ root.markup := by
  intro hmem
  rcases plain_markup hnamed hlegal _ hmem with h | h | h
  all_goals exact absurd h (by decide)

/-- Cut at its opening brackets, a document falls into its pieces. -/
theorem splitOn_markup : root.markup.splitOn '<' = [] :: root.documentPieces.map written := by
  have hopen : ∀ chars ∈ root.documentPieces.map written, '<' ∉ chars := by
    intro chars hchars
    obtain ⟨piece, hpiece, rfl⟩ := List.mem_map.mp hchars
    exact not_mem_written (writable_documentPieces hnamed hlegal piece hpiece) (by decide) (by decide)
  exact splitOn_pieces (List.not_mem_nil (a := '<')) hopen

/-- After the root a document ends its last line. -/
theorem after_document :
    (((root.documentPieces.map written).getLastD []).dropWhile (· ≠ '>')).drop 1 = ['\n'] := by
  obtain ⟨item, hlast⟩ := getLast?_pieces 0 ['\n'] root
  have hwritable := writable_documentPieces hnamed hlegal _ (List.mem_of_getLast? hlast)
  rw [List.getLastD_eq_getLast?, List.getLast?_map, documentPieces, hlast, Option.map_some,
    Option.getD_some, (cut_written hwritable).2]
  rfl

/-- **The document of an element is read as the element, laid out on lines.** -/
theorem read_document : Node.read root.document = some (laidOut 0 root) := by
  have hstack := foldlM_documentPieces root
  have hafter : ['\n'].all isBlank = true := by decide
  have hroot : [Node.text "\n", laidOut 0 root].filter (!·.isBlankText) = [laidOut 0 root] := by
    have hblank : (Node.text "\n").isBlankText = true := by decide
    simp [hblank, isBlankText_laidOut]
  obtain ⟨name, attributes, content, helement⟩ := exists_laidOut_eq 0 root
  rw [helement] at hstack hroot ⊢
  simp only [Node.read, isLegalText_document hnamed hlegal, isPrefixOf_document, drop_document,
    plainLines_eq_self (return_not_mem_markup hnamed hlegal), splitOn_markup hnamed hlegal,
    List.all_nil, after_document hnamed hlegal, hafter,
    mapM_readPiece (writable_documentPieces hnamed hlegal), Bool.not_true, Bool.or_self,
    Bool.false_eq_true, if_false, Option.bind_eq_bind, Option.bind_some, hstack, hroot]
  rfl

end Legal

end Element

/-! ## 6. Faithful texts -/

/-- A text that holds legal characters only, and from which a reader gets the tree of an element, but for
blanks that lay it out. -/
structure ReadsBack (text : String) (root : Element) : Prop where
  legal : isLegalText text = true
  faithful : ∃ node, Node.read text = some node ∧ node.withoutLayout = root.toNode

/-- **Every document of a legal element with names for its names is read back.** -/
theorem readsBack_document {root : Element} (hnamed : root.WellNamed) (hlegal : root.isLegal = true) :
    ReadsBack root.document root where
  legal := Element.isLegalText_document hnamed hlegal
  faithful := ⟨_, Element.read_document hnamed hlegal, Element.withoutLayout_laidOut 0 root⟩

end Bindery.Xml
