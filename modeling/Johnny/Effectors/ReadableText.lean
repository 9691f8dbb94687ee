import Johnny.Foundation.Values

/-!
# Readable text

The extractor keeps no stack of open elements: it counts the skipped ones that have started and
not ended. An element that never ends is never counted down.
-/
namespace Johnny

def skipElements : List String :=
  ["script", "style", "head", "noscript", "template", "svg", "iframe", "object", "embed", "nav",
    "footer", "form", "button", "aside"]

def blockElements : List String :=
  ["p", "div", "section", "article", "br", "li", "ul", "ol", "tr", "table", "h1", "h2", "h3", "h4",
    "h5", "h6", "blockquote", "pre", "header", "main", "hr"]

/-! ### Whitespace -/

/-- The words of a text whose current word, read backwards, is `current`. -/
def splitWordsFrom (current : List Char) : List Char → List String
  | [] => if current = [] then [] else [String.ofList current.reverse]
  | c :: rest =>
    if isSpace c then
      if current = [] then splitWordsFrom [] rest
      else String.ofList current.reverse :: splitWordsFrom [] rest
    else splitWordsFrom (c :: current) rest

/-- `value.split()`. -/
def splitWords (value : String) : List String := splitWordsFrom [] value.toList

def collapseInline (value : String) : String := " ".intercalate (splitWords value)

/-- The lines kept so far, with the next one: of empty lines in a row one is kept. -/
def keepLine (out : List String) (line : String) : List String :=
  if line ≠ "" then out ++ [line]
  else if out ≠ [] ∧ out.getLast? ≠ some "" then out ++ [""]
  else out

def collapseBlocks (value : String) : String :=
  strip ("\n".intercalate (((splitLines value).map collapseInline).foldl keepLine []))

/-! ### The extractor -/

/-- What the parser reports; the attributes of a tag are not looked at. -/
inductive HtmlEvent where
  | startTag (tag : String)
  | startEndTag (tag : String)
  | endTag (tag : String)
  | data (text : String)

structure ReadableTextExtractor where
  skipDepth : ℕ := 0
  inTitle : Bool := false
  parts : List String := []
  titleParts : List String := []

namespace ReadableTextExtractor

/-- The line break around the text of a block. -/
def breaks (tag : String) : List String := if tag ∈ blockElements then ["\n"] else []

def handleStarttag (x : ReadableTextExtractor) (tag : String) : ReadableTextExtractor :=
  { x with
    skipDepth := if tag ∈ skipElements then x.skipDepth + 1 else x.skipDepth
    inTitle := if tag = "title" then true else x.inTitle
    parts := x.parts ++ breaks tag }

def handleStartendtag (x : ReadableTextExtractor) (tag : String) : ReadableTextExtractor :=
  { x with parts := x.parts ++ breaks tag }

def handleEndtag (x : ReadableTextExtractor) (tag : String) : ReadableTextExtractor :=
  { x with
    skipDepth := if tag ∈ skipElements ∧ 0 < x.skipDepth then x.skipDepth - 1 else x.skipDepth
    inTitle := if tag = "title" then false else x.inTitle
    parts := x.parts ++ breaks tag }

def handleData (x : ReadableTextExtractor) (data : String) : ReadableTextExtractor :=
  if x.inTitle then { x with titleParts := x.titleParts ++ [data] }
  else if x.skipDepth ≠ 0 then x
  else { x with parts := x.parts ++ [data] }

def handle (x : ReadableTextExtractor) : HtmlEvent → ReadableTextExtractor
  | .startTag tag => x.handleStarttag tag
  | .startEndTag tag => x.handleStartendtag tag
  | .endTag tag => x.handleEndtag tag
  | .data text => x.handleData text

def feed (x : ReadableTextExtractor) (events : List HtmlEvent) : ReadableTextExtractor :=
  events.foldl handle x

def title (x : ReadableTextExtractor) : String := collapseInline (String.join x.titleParts)

def text (x : ReadableTextExtractor) : String := collapseBlocks (String.join x.parts)

end ReadableTextExtractor

/-- `extract_readable_text`, from the events of the document: its title and its text. -/
def extractReadableText (events : List HtmlEvent) : String × String :=
  let parser := ReadableTextExtractor.feed {} events
  (parser.title, parser.text)

/-! ### Documents -/

/-- The elements without content: they have a start tag and no end tag. -/
def voidElements : List String :=
  ["area", "base", "br", "col", "embed", "hr", "img", "input", "link", "meta", "param", "source",
    "track", "wbr"]

inductive HtmlNode where
  | text (text : String)
  | selfClosing (tag : String)
  | void (tag : String)
  | element (tag : String) (children : List HtmlNode)

namespace HtmlNode

mutual

/-- What the parser reports of a node. -/
def events : HtmlNode → List HtmlEvent
  | .text s => [.data s]
  | .selfClosing tag => [.startEndTag tag]
  | .void tag => [.startTag tag]
  | .element tag children => .startTag tag :: (allEvents children ++ [.endTag tag])

def allEvents : List HtmlNode → List HtmlEvent
  | [] => []
  | node :: nodes => node.events ++ allEvents nodes

end

mutual

/-- The void elements, and no others, have no end tag, and no title is in another one. -/
def WellFormed (inTitle : Bool) : HtmlNode → Prop
  | .text _ => True
  | .selfClosing _ => True
  | .void tag => tag ∈ voidElements
  | .element tag children => tag ∉ voidElements ∧ (tag = "title" → inTitle = false) ∧
      AllWellFormed (inTitle || tag == "title") children

def AllWellFormed (inTitle : Bool) : List HtmlNode → Prop
  | [] => True
  | node :: nodes => node.WellFormed inTitle ∧ AllWellFormed inTitle nodes

end

mutual

/-- The text nodes outside the skipped elements and the titles. -/
def visible : HtmlNode → List String
  | .text s => [s]
  | .selfClosing _ => []
  | .void _ => []
  | .element tag children =>
    if tag ∈ skipElements ∨ tag = "title" then [] else allVisible children

def allVisible : List HtmlNode → List String
  | [] => []
  | node :: nodes => node.visible ++ allVisible nodes

end

mutual

/-- The text nodes inside titles. -/
def titles (inTitle : Bool) : HtmlNode → List String
  | .text s => if inTitle then [s] else []
  | .selfClosing _ => []
  | .void _ => []
  | .element tag children => allTitles (inTitle || tag == "title") children

def allTitles (inTitle : Bool) : List HtmlNode → List String
  | [] => []
  | node :: nodes => node.titles inTitle ++ allTitles inTitle nodes

end

mutual

/-- The starts of void elements that are among the skipped. -/
def unended : HtmlNode → ℕ
  | .text _ => 0
  | .selfClosing _ => 0
  | .void tag => if tag ∈ skipElements then 1 else 0
  | .element _ children => allUnended children

def allUnended : List HtmlNode → ℕ
  | [] => 0
  | node :: nodes => node.unended + allUnended nodes

end

mutual

/-- The visible text nodes that follow such a start, of which there were `n` before. -/
def lost (n : ℕ) : HtmlNode → List String
  | .text s => if n = 0 then [] else [s]
  | .selfClosing _ => []
  | .void _ => []
  | .element tag children =>
    if tag ∈ skipElements ∨ tag = "title" then [] else allLost n children

def allLost (n : ℕ) : List HtmlNode → List String
  | [] => []
  | node :: nodes => node.lost n ++ allLost (n + node.unended) nodes

end

end HtmlNode

/-- A text without its whitespace. -/
def solid (s : String) : List Char := s.toList.filter fun c => !isSpace c

/-- The extractor reads the visible text, up to whitespace, and the title. -/
def Readable (document : List HtmlNode) : Prop :=
  solid (extractReadableText (HtmlNode.allEvents document)).2 =
      solid (String.join (HtmlNode.allVisible document)) ∧
    (extractReadableText (HtmlNode.allEvents document)).1 =
      collapseInline (String.join (HtmlNode.allTitles false document))

/-! ### What whitespace hides -/

theorem solid_append (s t : String) : solid (s ++ t) = solid s ++ solid t := by
  unfold solid
  rw [String.toList_append, List.filter_append]

theorem solid_ofList (cs : List Char) :
    solid (String.ofList cs) = cs.filter fun c => !isSpace c := by
  unfold solid
  rw [String.toList_ofList]

theorem solid_join (parts : List String) : solid (String.join parts) = parts.flatMap solid := by
  unfold solid
  rw [String.toList_join, List.filter_flatMap]

theorem solid_intercalate {sep : String} (blank : solid sep = []) (parts : List String) :
    solid (sep.intercalate parts) = parts.flatMap solid := by
  induction parts with
  | nil => rfl
  | cons part parts ih =>
      cases parts with
      | nil => rw [String.intercalate_singleton, List.flatMap_singleton]
      | cons next parts =>
          rw [String.intercalate_cons_cons, solid_append, solid_append, blank, List.append_nil, ih]
          rfl

theorem solid_cons_of_space {c : Char} (space : isSpace c = true) (rest : List Char) :
    solid (String.ofList (c :: rest)) = solid (String.ofList rest) := by
  rw [solid_ofList, solid_ofList, List.filter_cons_of_neg (by rw [space]; decide)]

/-- The next character goes from the rest to the current piece. -/
theorem solid_push (c : Char) (current rest : List Char) :
    solid (String.ofList (c :: current).reverse) ++ solid (String.ofList rest) =
      solid (String.ofList current.reverse) ++ solid (String.ofList (c :: rest)) := by
  rw [List.reverse_cons, solid_ofList, solid_ofList, solid_ofList, solid_ofList,
    List.filter_append, List.append_assoc, ← List.filter_append, List.singleton_append]

theorem solid_splitWordsFrom (current rest : List Char) :
    (splitWordsFrom current rest).flatMap solid =
      solid (String.ofList current.reverse) ++ solid (String.ofList rest) := by
  fun_induction splitWordsFrom current rest with
  | case1 => rfl
  | case2 current some =>
      rw [List.flatMap_singleton]
      exact (List.append_nil _).symm
  | case3 c rest space ih => rw [ih, solid_cons_of_space space]
  | case4 current c rest space some ih =>
      rw [List.flatMap_cons, ih, solid_cons_of_space space]
      rfl
  | case5 current c rest _ ih => rw [ih, solid_push]

theorem solid_collapseInline (value : String) : solid (collapseInline value) = solid value := by
  unfold collapseInline splitWords
  rw [solid_intercalate (by decide), solid_splitWordsFrom, String.ofList_toList]
  rfl

theorem isSpace_of_isLineBreak {c : Char} (breaks : isLineBreak c = true) : isSpace c = true := by
  unfold isLineBreak at breaks
  unfold isSpace
  simp only [Bool.or_eq_true, Bool.and_eq_true, decide_eq_true_eq, beq_iff_eq] at breaks ⊢
  omega

theorem solid_splitLinesFrom (current rest : List Char) :
    (splitLinesFrom current rest).flatMap solid =
      solid (String.ofList current.reverse) ++ solid (String.ofList rest) := by
  fun_induction splitLinesFrom current rest with
  | case1 => rfl
  | case2 current some =>
      rw [List.flatMap_singleton]
      exact (List.append_nil _).symm
  | case3 current rest ih =>
      rw [List.flatMap_cons, ih, solid_cons_of_space (by decide), solid_cons_of_space (by decide)]
      rfl
  | case4 current c rest _ breaks ih =>
      rw [List.flatMap_cons, ih, solid_cons_of_space (isSpace_of_isLineBreak breaks)]
      rfl
  | case5 current c rest _ _ ih => rw [ih, solid_push]

theorem solid_foldl_keepLine (lines out : List String) :
    (lines.foldl keepLine out).flatMap solid = out.flatMap solid ++ lines.flatMap solid := by
  induction lines generalizing out with
  | nil => exact (List.append_nil _).symm
  | cons line lines ih =>
      have kept : (keepLine out line).flatMap solid = out.flatMap solid ++ solid line := by
        unfold keepLine
        split
        case isTrue => rw [List.flatMap_append, List.flatMap_singleton]
        case isFalse empty =>
          rw [not_not.mp empty]
          split
          · rw [List.flatMap_append, List.flatMap_singleton]
          · exact (List.append_nil _).symm
      rw [List.foldl_cons, ih, kept, List.flatMap_cons, List.append_assoc]

theorem solid_strip (s : String) : solid (strip s) = solid s := by
  have trimmed (cs : List Char) :
      (cs.dropWhile isSpace).filter (fun c => !isSpace c) = cs.filter fun c => !isSpace c := by
    induction cs with
    | nil => rfl
    | cons c cs ih =>
        cases space : isSpace c with
        | true =>
            rw [List.dropWhile_cons_of_pos space, ih,
              List.filter_cons_of_neg (by rw [space]; decide)]
        | false => rw [List.dropWhile_cons_of_neg (by rw [space]; decide)]
  unfold strip stripBy
  rw [solid_ofList, List.filter_reverse, trimmed, List.filter_reverse, List.reverse_reverse, trimmed]
  rfl

theorem solid_collapseBlocks (value : String) : solid (collapseBlocks value) = solid value := by
  have inline : solid ∘ collapseInline = solid := funext solid_collapseInline
  unfold collapseBlocks splitLines
  rw [solid_strip, solid_intercalate (by decide), solid_foldl_keepLine, List.flatMap_map,
    List.flatMap_nil, List.nil_append]
  change List.flatMap (solid ∘ collapseInline) _ = _
  rw [inline, solid_splitLinesFrom, String.ofList_toList]
  rfl

/-! ### What the extractor keeps -/

namespace HtmlNode

mutual

/-- The text nodes that reach the text: neither in a title, nor with `n` skipped elements open. -/
def kept (inTitle : Bool) (n : ℕ) : HtmlNode → List String
  | .text s => if inTitle ∨ n ≠ 0 then [] else [s]
  | .selfClosing _ => []
  | .void _ => []
  | .element tag children =>
    allKept (inTitle || tag == "title") (if tag ∈ skipElements then n + 1 else n) children

def allKept (inTitle : Bool) (n : ℕ) : List HtmlNode → List String
  | [] => []
  | node :: nodes => node.kept inTitle n ++ allKept inTitle (n + node.unended) nodes

end

mutual

theorem kept_eq_nil {inTitle : Bool} {n : ℕ} (closed : inTitle = true ∨ n ≠ 0) (node : HtmlNode) :
    node.kept inTitle n = [] := by
  cases node with
  | text s => rw [kept, if_pos closed]
  | selfClosing tag => rw [kept]
  | void tag => rw [kept]
  | element tag children =>
      rw [kept]
      refine allKept_eq_nil (closed.imp (fun title => by rw [title, Bool.true_or]) fun some => ?_) _
      split
      · exact Nat.succ_ne_zero n
      · exact some

theorem allKept_eq_nil {inTitle : Bool} {n : ℕ} (closed : inTitle = true ∨ n ≠ 0)
    (nodes : List HtmlNode) : allKept inTitle n nodes = [] := by
  cases nodes with
  | nil => rw [allKept]
  | cons node nodes =>
      have later : inTitle = true ∨ n + node.unended ≠ 0 :=
        closed.imp_right fun some => (Nat.add_pos_left (Nat.pos_of_ne_zero some) _).ne'
      rw [allKept, kept_eq_nil closed node, allKept_eq_nil later nodes, List.append_nil]

end

mutual

/-- Until an element stays open nothing is lost. -/
theorem lost_eq_nil {n : ℕ} (node : HtmlNode) (ended : n + node.unended = 0) : node.lost n = [] := by
  cases node with
  | text s => rw [lost, if_pos (Nat.eq_zero_of_add_eq_zero_right ended)]
  | selfClosing tag => rw [lost]
  | void tag => rw [lost]
  | element tag children =>
      rw [lost]
      split
      · rfl
      · exact allLost_eq_nil children ended

theorem allLost_eq_nil {n : ℕ} (nodes : List HtmlNode) (ended : n + allUnended nodes = 0) :
    allLost n nodes = [] := by
  cases nodes with
  | nil => rw [allLost]
  | cons node nodes =>
      rw [allUnended, ← Nat.add_assoc] at ended
      rw [allLost, lost_eq_nil node (Nat.eq_zero_of_add_eq_zero_right ended),
        allLost_eq_nil nodes ended, List.append_nil]

end

mutual

/-- What is visible is kept or lost. -/
theorem kept_append_lost (n : ℕ) (node : HtmlNode) :
    node.kept false n ++ node.lost n = node.visible := by
  cases node with
  | text s =>
      rw [kept, lost, visible]
      by_cases none : n = 0
      · rw [if_neg (by simp [none]), if_pos none, List.append_nil]
      · rw [if_pos (.inr none), if_neg none, List.nil_append]
  | selfClosing tag => rw [kept, lost, visible, List.append_nil]
  | void tag => rw [kept, lost, visible, List.append_nil]
  | element tag children =>
      rw [kept, lost, visible, Bool.false_or]
      by_cases skipped : tag ∈ skipElements
      · rw [if_pos skipped, if_pos (.inl skipped), if_pos (.inl skipped), List.append_nil]
        exact allKept_eq_nil (.inr (Nat.succ_ne_zero n)) children
      · by_cases title : tag = "title"
        · rw [if_neg skipped, if_pos (.inr title), if_pos (.inr title), List.append_nil]
          exact allKept_eq_nil (.inl (beq_iff_eq.mpr title)) children
        · rw [if_neg skipped, if_neg (not_or.mpr ⟨skipped, title⟩),
            if_neg (not_or.mpr ⟨skipped, title⟩), beq_false_of_ne title]
          exact allKept_append_lost n children

theorem allKept_append_lost (n : ℕ) (nodes : List HtmlNode) :
    allKept false n nodes ++ allLost n nodes = allVisible nodes := by
  cases nodes with
  | nil => rw [allKept, allLost, allVisible, List.append_nil]
  | cons node nodes =>
      rw [allKept, allLost, allVisible, ← kept_append_lost n node,
        ← allKept_append_lost (n + node.unended) nodes]
      by_cases ended : n + node.unended = 0
      · rw [lost_eq_nil node ended, List.append_nil, List.nil_append, List.append_assoc]
      · rw [allKept_eq_nil (.inr ended), List.append_nil, List.nil_append, List.append_assoc]

end

/-! ### The run over a document -/

/-- What the run over some nodes does to the extractor. -/
structure Fed (inTitle : Bool) (unended : ℕ) (titles kept : List String)
    (x y : ReadableTextExtractor) : Prop where
  inTitle : y.inTitle = inTitle
  skipDepth : y.skipDepth = x.skipDepth + unended
  titleParts : y.titleParts = x.titleParts ++ titles
  parts : y.parts.flatMap solid = x.parts.flatMap solid ++ kept.flatMap solid

theorem solid_breaks (parts : List String) (tag : String) :
    (parts ++ ReadableTextExtractor.breaks tag).flatMap solid = parts.flatMap solid := by
  rw [List.flatMap_append]
  unfold ReadableTextExtractor.breaks
  split
  · exact List.append_nil _
  · exact List.append_nil _

theorem feed_append (x : ReadableTextExtractor) (first rest : List HtmlEvent) :
    x.feed (first ++ rest) = (x.feed first).feed rest := List.foldl_append

theorem not_skipped_of_void {tag : String} (void : tag ∈ voidElements) : tag ≠ "title" := by
  rintro rfl
  exact absurd void (by decide)

mutual

theorem events_fed {inTitle : Bool} (node : HtmlNode) (wf : node.WellFormed inTitle)
    {x : ReadableTextExtractor} (here : x.inTitle = inTitle) :
    Fed inTitle node.unended (node.titles inTitle) (node.kept inTitle x.skipDepth) x
      (x.feed node.events) := by
  cases node with
  | text s =>
      rw [events, unended, titles, kept]
      change Fed _ _ _ _ x (x.handleData s)
      cases inTitle with
      | true =>
          have held : x.handleData s = { x with titleParts := x.titleParts ++ [s] } := if_pos here
          rw [held]
          exact ⟨here, rfl, rfl, (List.append_nil _).symm⟩
      | false =>
          have outside : x.handleData s =
              if x.skipDepth ≠ 0 then x else { x with parts := x.parts ++ [s] } :=
            if_neg (by rw [here]; exact Bool.false_ne_true)
          rw [outside]
          by_cases skipping : x.skipDepth ≠ 0
          · have closed : false = true ∨ x.skipDepth ≠ 0 := .inr skipping
            rw [if_pos skipping, if_pos closed]
            exact ⟨here, rfl, (List.append_nil _).symm, (List.append_nil _).symm⟩
          · have read : ¬ (false = true ∨ x.skipDepth ≠ 0) :=
              not_or.mpr ⟨Bool.false_ne_true, skipping⟩
            rw [if_neg skipping, if_neg read]
            exact ⟨here, rfl, (List.append_nil _).symm, List.flatMap_append⟩
  | selfClosing tag =>
      rw [events, unended, titles, kept]
      refine ⟨here, rfl, (List.append_nil _).symm, ?_⟩
      exact (solid_breaks _ _).trans (List.append_nil _).symm
  | void tag =>
      rw [events, unended, titles, kept]
      change Fed _ _ _ _ x (x.handleStarttag tag)
      unfold ReadableTextExtractor.handleStarttag
      refine ⟨?_, ?_, (List.append_nil _).symm, (solid_breaks _ _).trans (List.append_nil _).symm⟩
      · exact (if_neg (not_skipped_of_void wf)).trans here
      · dsimp only
        split <;> rfl
  | element tag children =>
      obtain ⟨-, single, wf⟩ := wf
      have entered : (x.handleStarttag tag).inTitle = (inTitle || tag == "title") := by
        unfold ReadableTextExtractor.handleStarttag
        dsimp only
        by_cases title : tag = "title"
        · rw [if_pos title, beq_iff_eq.mpr title, Bool.or_true]
        · rw [if_neg title, beq_false_of_ne title, Bool.or_false, here]
      have inside := allEvents_fed children wf entered
      have run : x.feed (element tag children).events =
          ((x.handleStarttag tag).feed (allEvents children)).handleEndtag tag := by
        rw [events, ← List.cons_append, feed_append]
        rfl
      rw [run, unended, titles, kept]
      generalize (x.handleStarttag tag).feed (allEvents children) = y at inside ⊢
      refine ⟨?_, ?_, inside.titleParts, ?_⟩
      · unfold ReadableTextExtractor.handleEndtag
        dsimp only
        by_cases title : tag = "title"
        · rw [if_pos title, single title]
        · rw [if_neg title, inside.inTitle, beq_false_of_ne title, Bool.or_false]
      · have depth := inside.skipDepth
        unfold ReadableTextExtractor.handleStarttag at depth
        unfold ReadableTextExtractor.handleEndtag
        dsimp only at depth ⊢
        by_cases skipped : tag ∈ skipElements
        · rw [if_pos skipped] at depth
          rw [if_pos ⟨skipped, by omega⟩]
          omega
        · rw [if_neg skipped] at depth
          rw [if_neg (fun both => skipped both.1)]
          exact depth
      · refine (solid_breaks _ _).trans (inside.parts.trans ?_)
        exact congrArg (· ++ _) (solid_breaks _ _)

theorem allEvents_fed {inTitle : Bool} (nodes : List HtmlNode) (wf : AllWellFormed inTitle nodes)
    {x : ReadableTextExtractor} (here : x.inTitle = inTitle) :
    Fed inTitle (allUnended nodes) (allTitles inTitle nodes) (allKept inTitle x.skipDepth nodes) x
      (x.feed (allEvents nodes)) := by
  cases nodes with
  | nil =>
      rw [allEvents, allUnended, allTitles, allKept]
      exact ⟨here, rfl, (List.append_nil _).symm, (List.append_nil _).symm⟩
  | cons node nodes =>
      have first := events_fed node wf.1 here
      rw [allEvents, allUnended, allTitles, allKept, feed_append, ← first.skipDepth]
      generalize x.feed node.events = y at first ⊢
      have rest := allEvents_fed nodes wf.2 first.inTitle
      refine ⟨rest.inTitle, ?_, ?_, ?_⟩
      · rw [rest.skipDepth, first.skipDepth, Nat.add_assoc]
      · rw [rest.titleParts, first.titleParts, List.append_assoc]
      · rw [rest.parts, first.parts, List.flatMap_append, List.append_assoc]

end

end HtmlNode

/-- A document is read as it should be exactly where no text that ought to be read, whitespace
apart, follows the start of a skipped void element. -/
theorem readable_text_iff (document : List HtmlNode) (wf : HtmlNode.AllWellFormed false document) :
    Readable document ↔ solid (String.join (HtmlNode.allLost 0 document)) = [] := by
  have fed := HtmlNode.allEvents_fed document wf (x := {}) rfl
  have text : solid (extractReadableText (HtmlNode.allEvents document)).2 =
      (HtmlNode.allKept false 0 document).flatMap solid := by
    refine (solid_collapseBlocks _).trans ((solid_join _).trans ?_)
    exact fed.parts.trans (List.nil_append _)
  have title : (extractReadableText (HtmlNode.allEvents document)).1 =
      collapseInline (String.join (HtmlNode.allTitles false document)) :=
    congrArg (fun parts => collapseInline (String.join parts)) fed.titleParts
  unfold Readable
  rw [text, solid_join, solid_join, ← HtmlNode.allKept_append_lost 0 document, List.flatMap_append,
    and_iff_left title]
  exact List.self_eq_append_right

/-- A page that embeds a player before its text. -/
def embedded : List HtmlNode :=
  [.element "p" [.text "Watch this."], .void "embed", .element "p" [.text "And read on."]]

/-- Its text ends at the player. -/
theorem embedded_unread : HtmlNode.AllWellFormed false embedded ∧
    extractReadableText (HtmlNode.allEvents embedded) = ("", "Watch this.") ∧
    ¬ Readable embedded := by
  refine ⟨?_, ?_, ?_⟩
  · have void : "embed" ∈ voidElements := by decide
    exact ⟨⟨by decide, nofun, trivial, trivial⟩, void, ⟨by decide, nofun, trivial, trivial⟩, trivial⟩
  · decide +kernel
  · unfold Readable
    decide +kernel

theorem plain_page_read :
    Readable [.element "title" [.text "Hi"], .element "p" [.text "Hello."]] ↔
      solid (String.join (HtmlNode.allLost 0
        [.element "title" [.text "Hi"], .element "p" [.text "Hello."]])) = [] :=
  readable_text_iff _ ⟨⟨by decide, fun _ => rfl, trivial, trivial⟩,
    ⟨by decide, nofun, trivial, trivial⟩, trivial⟩

end Johnny
