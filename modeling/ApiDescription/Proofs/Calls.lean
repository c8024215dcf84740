import ApiDescription.Client.Program
import ApiDescription.Proofs.Naming

/-!
# Calls in generated code

A call is a word with an opening parenthesis right behind it.  Texts of the description that stand
between quotes and expressions that the description gives are no code of the generator: calls are
looked for in what is around them.  The helpers of a client are the functions that write and read
values, and their names tell them from everything else that generated code calls.
-/

namespace ApiDescription.Client

open List
open Code (Fragment Line Method)

/-! ## Calls in a line -/

/-- The words before an opening parenthesis, and the word that the text ends in; `word` is what the
text before ended in. -/
def scanCalls (word : List Char) : List Char → List String × List Char
  | [] => ([], word)
  | character :: rest =>
    if isWordChar character then scanCalls (word ++ [character]) rest
    else
      let (calls, last) := scanCalls [] rest
      (if character = '(' then String.ofList word :: calls else calls, last)

/-- What is left of a fragment when the words of the description are left out. -/
def outline : Fragment → String
  | .code text => text
  | .quoted _ => "''"
  | .value _ => " "

def callsIn : Line → List String
  | .code fragments =>
    (scanCalls [] (fragments.flatMap fun fragment => (outline fragment).toList)).1
  | .indent | .dedent => []

/-- Whether a name is that of a function that writes or reads values. -/
def isHelper (name : String) : Bool :=
  "serialize_".toList.isPrefixOf name.toList || "deserialize_".toList.isPrefixOf name.toList

def helpersIn (line : Line) : List String :=
  (callsIn line).filter isHelper

def helpersOf (method : Method) : List String :=
  method.body.flatMap helpersIn

theorem scanCalls_append (word left right : List Char) :
    scanCalls word (left ++ right) =
      ((scanCalls word left).1 ++ (scanCalls (scanCalls word left).2 right).1,
        (scanCalls (scanCalls word left).2 right).2) := by
  induction left generalizing word with
  | nil => rfl
  | cons character rest ih =>
    simp only [cons_append, scanCalls]
    split
    · exact ih _
    · rw [ih]
      split <;> simp

theorem scanCalls_word {text : String} (isWord : IsWord text) (word : List Char) :
    scanCalls word text.toList = ([], word ++ text.toList) := by
  unfold IsWord at isWord
  generalize text.toList = characters at isWord
  induction characters generalizing word with
  | nil => simp [scanCalls]
  | cons character rest ih =>
    rw [scanCalls, if_pos (isWord character mem_cons_self), ih]
    · simp
    · exact fun other member => isWord other (mem_cons_of_mem _ member)

theorem scanCalls_of_no_parenthesis {text : List Char} (absent : '(' ∉ text) (word : List Char) :
    (scanCalls word text).1 = [] := by
  induction text generalizing word with
  | nil => rfl
  | cons character rest ih =>
    rw [mem_cons, not_or] at absent
    rw [scanCalls]
    split
    · exact ih absent.2 _
    · simpa [Ne.symm absent.1] using ih absent.2 []

/-! ## Helpers that methods call -/

@[simp] theorem helpersOf_empty (placement : Code.Placement) (name : String) :
    helpersOf (Method.empty placement name) = [] := rfl

@[simp] theorem helpersOf_addArgument (method : Method) (argument : Code.Argument) :
    helpersOf (method.addArgument argument) = helpersOf method := rfl

@[simp] theorem helpersOf_addLine (method : Method) (line : Line) :
    helpersOf (method.addLine line) = helpersOf method ++ helpersIn line := by
  simp [helpersOf, Method.addLine]

@[simp] theorem helpersOf_addLines (method : Method) (lines : List Line) :
    helpersOf (method.addLines lines) = helpersOf method ++ lines.flatMap helpersIn := by
  simp [helpersOf, Method.addLines]

@[simp] theorem helpersOf_addBlock (method : Method) (lines : List Line) :
    helpersOf (method.addBlock lines) = helpersOf method ++ lines.flatMap helpersIn := by
  simp [helpersOf, Method.addBlock, helpersIn, callsIn]

namespace Codec

@[simp] theorem helpersOf_function (name : String) (body : Method → Method) :
    helpersOf (function name body) =
      helpersOf (body ((Method.empty .static name).addArgument (.plain "obj"))) := rfl

@[simp] theorem helpersOf_refusal (name : String) : helpersOf (refusal name) = [] := rfl

theorem helpersOf_final (format : Format) : helpersOf format.final = [] := by
  cases format <;> rfl

theorem helpersOf_plainWriter (format : Format) (name : String) :
    helpersOf (plainWriter format name) = [] := by
  cases format <;> rfl

variable {callee name helper className : String} {part : FieldPart} {parts : List FieldPart}

theorem helpersOf_itemsWriter (name : String) (isWord : IsWord callee) :
    helpersOf (itemsWriter name callee) = [callee].filter isHelper := by
  simp [itemsWriter, helpersIn, callsIn, outline, Line.ofText, scanCalls_append,
    scanCalls_word isWord, scanCalls, isWordChar, isHelper]

theorem helpersOf_plainReader (name : String) : helpersOf (plainReader name) = [] := rfl

theorem helpersOf_itemsReader_none (kind : Container) (name : String) :
    helpersOf (itemsReader kind name none) = [] := by
  cases kind <;>
    simp [itemsReader, reader, readerData, Container.name, helpersIn, callsIn, outline, Line.ofText,
      scanCalls, isWordChar, isHelper]

theorem helpersOf_itemsReader_some (kind : Container) (name : String) (isWord : IsWord callee) :
    helpersOf (itemsReader kind name (some callee)) = [callee].filter isHelper := by
  cases kind <;>
    simp [itemsReader, reader, readerData, Container.name, helpersIn, callsIn, outline, Line.ofText,
      scanCalls_append, scanCalls_word isWord, scanCalls, isWordChar, isHelper]

/-- The words of a field are such that a line made of them calls nothing but the function that the
value is handed to. -/
structure FieldPart.IsSpelled (part : FieldPart) : Prop where
  parameter : IsWord part.parameter
  callee : ∀ callee ∈ part.callee, IsWord callee

theorem FieldPart.IsSpelled.helpersIn_writeLines (spelled : part.IsSpelled) :
    part.writeLines.flatMap helpersIn = part.callee.toList.filter isHelper := by
  obtain ⟨key, parameter, callee, optional⟩ := part
  have parameterWord := scanCalls_word spelled.parameter
  cases callee with
  | none =>
    cases optional <;>
      simp [writeLines, prepared, helpersIn, callsIn, outline, scanCalls_append, parameterWord,
        scanCalls, isWordChar]
  | some callee =>
    have calleeWord := scanCalls_word (spelled.callee callee rfl)
    cases optional <;>
      simp [writeLines, prepared, helpersIn, callsIn, outline, scanCalls_append, parameterWord,
        calleeWord, scanCalls, isWordChar]

theorem FieldPart.IsSpelled.helpersIn_readLine (spelled : part.IsSpelled) :
    helpersIn part.readLine = part.callee.toList.filter isHelper := by
  obtain ⟨key, parameter, callee, optional⟩ := part
  have parameterWord := scanCalls_word spelled.parameter
  cases callee with
  | none =>
    simp [readLine, helpersIn, callsIn, outline, scanCalls_append, parameterWord, scanCalls,
      isWordChar, isHelper]
  | some callee =>
    have calleeWord := scanCalls_word (spelled.callee callee rfl)
    simp [readLine, helpersIn, callsIn, outline, scanCalls_append, parameterWord, calleeWord,
      scanCalls, isWordChar, isHelper, filter_cons]

theorem mem_helpersOf_recordWriter (spelled : ∀ part ∈ parts, part.IsSpelled)
    (member : helper ∈ helpersOf (recordWriter name parts)) :
    ∃ part ∈ parts, part.callee = some helper := by
  have start : helpersIn (Line.ofText "output = dict()") = [] := rfl
  have result : helpersIn (Line.ofText "return output") = [] := rfl
  simp only [recordWriter, helpersOf_function, helpersOf_addLine, helpersOf_addLines,
    helpersOf_addArgument, helpersOf_empty, start, result, nil_append, append_nil,
    flatMap_assoc, mem_flatMap] at member
  obtain ⟨part, inParts, line, inLines, inLine⟩ := member
  have called := mem_flatMap.mpr ⟨line, inLines, inLine⟩
  rw [(spelled part inParts).helpersIn_writeLines] at called
  exact ⟨part, inParts, Option.mem_toList.mp (mem_filter.mp called).1⟩

theorem isHelper_of_isClassName (isClass : IsClassName name) : isHelper name = false := by
  obtain ⟨-, first, rest, characters, notSmall⟩ := isClass
  have serialize : ('s' == first) = false := by
    rw [beq_eq_false_iff_ne]
    rintro rfl
    cases notSmall
  have deserialize : ('d' == first) = false := by
    rw [beq_eq_false_iff_ne]
    rintro rfl
    cases notSmall
  simp [isHelper, characters, isPrefixOf, serialize, deserialize]

theorem helpersIn_construction (isClass : IsClassName className)
    (spelled : ∀ part ∈ parts, part.IsSpelled) :
    helpersIn (.code ["result = ", className, "(",
      Text.join ", " (parts.map fun part => part.parameter ++ "=" ++ part.parameter), ")"]) =
        [] := by
  have absent : '(' ∉ (Text.join ", " (parts.map fun part =>
      part.parameter ++ "=" ++ part.parameter)).toList := by
    intro member
    rcases mem_join member with inSeparator | ⟨text, isText, inText⟩
    · simp at inSeparator
    · obtain ⟨part, inParts, rfl⟩ := mem_map.mp isText
      simp only [String.toList_append, mem_append] at inText
      have notWord : '(' ∉ part.parameter.toList := fun inParameter =>
        absurd ((spelled part inParts).parameter '(' inParameter) (by decide)
      simp [notWord] at inText
  simp [helpersIn, callsIn, outline, scanCalls_append, scanCalls_word isClass.1,
    scanCalls_of_no_parenthesis absent, scanCalls, isWordChar, isHelper_of_isClassName isClass]

theorem mem_helpersOf_recordReader (isClass : IsClassName className)
    (spelled : ∀ part ∈ parts, part.IsSpelled)
    (member : helper ∈ helpersOf (recordReader name className parts)) :
    ∃ part ∈ parts, part.callee = some helper := by
  have result : helpersIn (Line.ofText "return result") = [] := rfl
  have start : helpersOf (readerData "dict" ((((Method.empty .static name).addArgument
      (.plain "obj")).addLine "if obj is None:").addBlock ["return None"])) = [] := rfl
  simp only [recordReader, objectReader, reader, helpersOf_function, helpersOf_addLines, start,
    flatMap_append, flatMap_cons, flatMap_nil, helpersIn_construction isClass spelled,
    result, nil_append, append_nil, mem_flatMap, mem_map] at member
  obtain ⟨_, ⟨part, inParts, rfl⟩, called⟩ := member
  rw [(spelled part inParts).helpersIn_readLine] at called
  exact ⟨part, inParts, Option.mem_toList.mp (mem_filter.mp called).1⟩

end Codec

end ApiDescription.Client
