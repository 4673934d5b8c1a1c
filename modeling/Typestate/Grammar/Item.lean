import Typestate.Grammar.Declaration
import Typestate.Grammar.Pattern

/-!
# Items

Functions, declarations, modules and what else may stand in a block beside statements. An item
that is more general than the constructs of trees can say is kept as it was read.
-/

namespace Typestate.Grammar

open Grammar.Parser

/-! ### Functions -/

/-- The value itself as the input of a function; a path may not begin with it. -/
def receiver (sorts : Sorts) : Parser (List Node) := do
  let reference ← onlyIf (isOp "&") do
    let mark ← operator "&"
    return mark :: (← lifetime?)
  let word ← keyword? "mut"
  let self ← keyword "self"
  if isOp "::" (← ahead) then fail
  else
    let type ← onlyIf (fun tokens => reference.isEmpty && isOp ":" tokens) do
      return [← operator ":", ← sorts.type true]
    return reference ++ word ++ self :: type

/-- An input of a function, by what it stands for. -/
inductive Input where
  /-- The value itself. -/
  | receiver (nodes : List Node)
  /-- A value of a type. -/
  | typed (nodes : List Node)
  /-- All inputs from some point on. -/
  | rest (nodes : List Node)

/-- An input of a function that does not stand for the value itself. A type with arguments may
stand alone. -/
def typedInput (sorts : Sorts) : Parser Input := do
  let tokens ← ahead
  if isIdentifier tokens && isOp "<" (afterOne tokens) then
    return .typed [.word "_", .operator ":", ← sorts.type true]
  else
    let shape ← sorts.pattern
    let colon ← operator ":"
    if isOp "..." (← ahead) then return .rest [shape, colon, ← operator "..."]
    else return .typed [shape, colon, ← sorts.type true]

/-- An input of a function. -/
def functionArgument (sorts : Sorts) : Parser Input := do
  if isOp "..." (← ahead) then return .rest [← operator "..."]
  else orElse (do return .receiver (← receiver sorts)) (typedInput sorts)

/-- The inputs of a function. Only the first one may be the value itself, and three dots end them.
What stands before is given by whether there is an input, and whether one is the value itself. -/
def functionArgumentsAtMost (sorts : Sorts) (isFirst hasReceiver : Bool) : Nat → Parser (List Node)
  | 0 => fail
  | rounds + 1 => do
    if (← ahead).isEmpty then return []
    else
      let attributes ← outerAttributes sorts
      let goOn (nodes : List Node) (hasReceiver : Bool) : Parser (List Node) := do
        if (← ahead).isEmpty then return attributes ++ nodes
        else
          let comma ← operator ","
          let others ← functionArgumentsAtMost sorts false hasReceiver rounds
          return attributes ++ nodes ++ comma :: others
      match ← functionArgument sorts with
      | .rest nodes =>
        let comma ← onlyIf (fun tokens => !tokens.isEmpty) (one (operator ","))
        return attributes ++ nodes ++ comma
      | .typed nodes => goOn nodes hasReceiver
      | .receiver nodes =>
        if hasReceiver then refuse "unexpected second method receiver"
        else if !isFirst then refuse "unexpected method receiver"
        else goOn nodes true

/-- Where a function stands, which decides what may stand before it. -/
inductive Site where
  /-- Among the functions of another language, which may be marked as safe. -/
  | foreign
  | elsewhere
  deriving DecidableEq

/-- What stands before the word that begins a function. -/
def functionQualities (site : Site) : Parser (List Node) := do
  let constness ← keyword? "const"
  let asyncness ← keyword? "async"
  let isUnsafe := isWord "unsafe" (← ahead)
  let safety ← keyword? "unsafe"
  let safe ← if site = .foreign && !isUnsafe then keyword? "safe" else pure []
  return constness ++ asyncness ++ safety ++ safe ++ (← convention?)

/-- A function begins here. -/
def beginsFunctionAt (site : Site) (tokens : List Token) : Bool :=
  match functionQualities site tokens with
  | .ok found => isWord "fn" found.rest
  | .error _ => false

/-- A function begins here. -/
def beginsFunction (tokens : List Token) : Bool := beginsFunctionAt .elsewhere tokens

/-- The name, the inputs and the output of a function. -/
def signatureAt (site : Site) (sorts : Sorts) : Parser Node := do
  let qualities ← functionQualities site
  let word ← keyword "fn"
  let name ← identifier
  let parameters ← generics sorts
  let inputs ← group .parenthesis do
    functionArgumentsAtMost sorts true false ((← ahead).length + 1)
  let output ← output? sorts true
  let conditions ← whereClause sorts
  return .branch .signature <|
    qualities ++ word :: .word name :: parameters ++ inputs :: output ++ conditions

/-- The name, the inputs and the output of a function. -/
def signature (sorts : Sorts) : Parser Node := signatureAt .elsewhere sorts

/-- A function with its body. Without a body it is kept as it was read. -/
def functionItem (sorts : Sorts) (start : List Token) : Parser Node := do
  let visibility ← visibility
  let signature ← signature sorts
  if isOp ";" (← ahead) then
    let _ ← operator ";"
    keepFrom start
  else
    return .branch .item (visibility ++ [signature, ← blockWithAttributes sorts])

/-! ### Names brought in -/

/-- A new name after the word that gives one; a low line stands for none. -/
def rename : Parser (List Node) := do
  let word ← keyword "as"
  let tokens ← ahead
  if isIdentifier tokens || isWord "_" tokens then return [word, .word (← anyWord)]
  else expected ["identifier or underscore"]

/-- Several trees of a use declaration between commas. -/
def useTreesAtMost (sorts : Sorts) (fromRoot : Bool) : Nat → Parser (Bool × List Node)
  | 0 => fail
  | rounds + 1 => do
    if (← ahead).isEmpty then return (false, [])
    else
      let colons ← if fromRoot then operator? "::" else pure []
      let (holdsRoot, tree) ← sorts.useTree (fromRoot && colons.isEmpty)
      if (← ahead).isEmpty then return (holdsRoot || !colons.isEmpty, [tree])
      else
        let comma ← operator ","
        let (othersHold, others) ← useTreesAtMost sorts fromRoot rounds
        return (holdsRoot || !colons.isEmpty || othersHold, tree :: comma :: others)

/-- What a use declaration brings in, and whether a path from the root stands inside braces. -/
def useTreeWhere (sorts : Sorts) (fromRoot : Bool) : Parser (Bool × Node) := do
  let tokens ← ahead
  if isIdentifier tokens || isAnyOf ["self", "super", "crate", "try"] tokens then
    let name ← anyWord
    let after ← ahead
    if isOp "::" after then
      let colons ← operator "::"
      let (_, tree) ← sorts.useTree false
      return (false, .branch .path [.word name, colons, tree])
    else if isWord "as" after then return (false, .branch .path (.word name :: (← rename)))
    else return (false, .word name)
  else if isOp "*" tokens then return (false, ← operator "*")
  else if isGroup .brace tokens then
    let (holdsRoot, trees) ← inside .brace do
      useTreesAtMost sorts fromRoot ((← ahead).length + 1)
    return (holdsRoot, .group .brace trees)
  else expected ["identifier", "`self`", "`super`", "`crate`", "`try`", "`*`", "curly braces"]

/-- A use declaration. -/
def useItem (sorts : Sorts) (start : List Token) : Parser Node := do
  let visibility ← visibility
  let word ← keyword "use"
  let colons ← operator? "::"
  let (holdsRoot, tree) ← sorts.useTree colons.isEmpty
  let semicolon ← operator ";"
  if holdsRoot then keepFrom start
  else return .branch .item (visibility ++ word :: colons ++ [tree, semicolon])

/-! ### Values -/

/-- A value that lives as long as the program. Without a type or a value it is kept as read. -/
def staticItem (sorts : Sorts) (start : List Token) : Parser Node := do
  let visibility ← visibility
  let word ← keyword "static"
  let mutability ← keyword? "mut"
  let name ← identifier
  if isOp "=" (← ahead) then
    let _ ← operator "="
    let _ ← sorts.expression
    let _ ← operator ";"
    keepFrom start
  else
    let colon ← operator ":"
    let type ← sorts.type true
    if isOp ";" (← ahead) then
      let _ ← operator ";"
      keepFrom start
    else
      let equals ← operator "="
      let value ← sorts.expression
      return .branch .item <|
        visibility ++ word :: mutability ++ [.word name, colon, type, equals, value, ← operator ";"]

/-- The name of a constant, which may be a low line. -/
def constantName : Parser Node := do
  let tokens ← ahead
  if isIdentifier tokens || isWord "_" tokens then wordNode anyWord
  else expected ["identifier", "`_`"]

/-- A constant after what stands in front of it. -/
structure Constant where
  nodes : List Node
  /-- The constant has parameters or conditions on them. -/
  isGeneric : Bool
  /-- The value of the constant is said. -/
  hasValue : Bool

/-- A constant with or without a value. -/
def constant (sorts : Sorts) : Parser Constant := do
  let word ← keyword "const"
  let name ← constantName
  let hasParameters := isOp "<" (← ahead)
  let _ ← generics sorts
  let colon ← operator ":"
  let type ← sorts.type true
  let value ← onlyIf (isOp "=") do
    return [← operator "=", ← sorts.expression]
  let hasConditions := isWord "where" (← ahead)
  let _ ← whereClause sorts
  let semicolon ← operator ";"
  return ⟨word :: name :: colon :: type :: value ++ [semicolon], hasParameters || hasConditions,
    !value.isEmpty⟩

/-- A constant. With parameters or without a value it is kept as read. -/
def constantItem (sorts : Sorts) (start : List Token) : Parser Node := do
  let visibility ← visibility
  let found ← constant sorts
  if found.isGeneric || !found.hasValue then keepFrom start
  else return .branch .item (visibility ++ found.nodes)

/-! ### Types -/

/-- Where the conditions on the parameters of a name for a type stand. -/
inductive ConditionPlace where
  | beforeType | afterType | either
  deriving DecidableEq

/-- A name for a type. -/
structure TypeName where
  nodes : List Node
  /-- A colon stands after the name. -/
  hasColon : Bool
  /-- What the name stands for is said. -/
  hasType : Bool

/-- A name for a type, with what it stands for or without. -/
def typeName (sorts : Sorts) (place : ConditionPlace) : Parser TypeName := do
  let word ← keyword "type"
  let name ← identifier
  let parameters ← generics sorts
  let hasColon := isOp ":" (← ahead)
  let atEnd := fun tokens => isWord "where" tokens || isOneOf ["=", ";"] tokens
  let bounds ← boundedBy (separated "+" atEnd (one (sorts.bound ⟨false, true⟩)))
  let conditions ← if place = .afterType then pure [] else whereClause sorts
  let type ← onlyIf (isOp "=") do
    return [← operator "=", ← sorts.type true]
  let lastConditions ←
    if place = .afterType || (place = .either && conditions.isEmpty) then whereClause sorts
    else pure []
  let semicolon ← operator ";"
  return ⟨word :: .word name :: parameters ++ bounds ++ conditions ++ type ++ lastConditions ++
      [semicolon], hasColon, !type.isEmpty⟩

/-- A name for a type. With bounds, or without what it stands for, it is kept as read. -/
def typeItem (sorts : Sorts) (start : List Token) : Parser Node := do
  let visibility ← visibility
  let found ← typeName sorts .beforeType
  if found.hasColon || !found.hasType then keepFrom start
  else return .branch .item (visibility ++ found.nodes)

/-- Fields with names, with the commas between them. -/
def namedFieldsNode (sorts : Sorts) : Parser Node :=
  group .brace (commaSeparated do return [(← namedField sorts).node])

/-- Fields without names, with the commas between them. -/
def tupleFieldsNode (sorts : Sorts) : Parser Node :=
  group .parenthesis (commaSeparated do return [(← tupleField sorts).node])

/-- A semicolon, unless something else may stand here too. -/
def semicolonOr (others : List String) : Parser Node := do
  if isOp ";" (← ahead) then operator ";" else expected (others ++ ["`;`"])

/-- The fields of a struct and the conditions on its parameters. Conditions stand before braces or
a semicolon, or after parentheses. -/
def structFieldsNodes (sorts : Sorts) : Parser (List Node) := do
  let isConditional := isWord "where" (← ahead)
  let conditions ← whereClause sorts
  let tokens ← ahead
  if !isConditional && isGroup .parenthesis tokens then
    let fields ← tupleFieldsNode sorts
    let isConditional := isWord "where" (← ahead)
    let conditions ← whereClause sorts
    return fields :: conditions ++ [← semicolonOr (if isConditional then [] else ["`where`"])]
  else if isGroup .brace tokens then return conditions ++ [← namedFieldsNode sorts]
  else
    let others := if isConditional then [] else ["`where`", "parentheses"]
    return conditions ++ [← semicolonOr (others ++ ["curly braces"])]

/-- A struct. -/
def structItem (sorts : Sorts) : Parser Node := do
  let visibility ← visibility
  let word ← keyword "struct"
  let name ← identifier
  let parameters ← generics sorts
  return .branch .item <|
    visibility ++ word :: .word name :: parameters ++ (← structFieldsNodes sorts)

/-- A variant of an enumeration. -/
def variantNode (sorts : Sorts) : Parser (List Node) := do
  let attributes ← outerAttributes sorts
  let _ ← visibility
  let name ← identifier
  let tokens ← ahead
  let fields ←
    if isGroup .brace tokens then one (namedFieldsNode sorts)
    else if isGroup .parenthesis tokens then one (tupleFieldsNode sorts)
    else pure []
  let number ← onlyIf (isOp "=") do
    return [← operator "=", ← sorts.expression]
  return [.construct .variant attributes (.word name :: fields ++ number)]

/-- An enumeration. -/
def enumItem (sorts : Sorts) : Parser Node := do
  let visibility ← visibility
  let word ← keyword "enum"
  let name ← identifier
  let parameters ← generics sorts
  let conditions ← whereClause sorts
  let variants ← group .brace (commaSeparated (variantNode sorts))
  return .branch .item (visibility ++ word :: .word name :: parameters ++ conditions ++ [variants])

/-- A union. -/
def unionItem (sorts : Sorts) : Parser Node := do
  let visibility ← visibility
  let word ← keyword "union"
  let name ← identifier
  let parameters ← generics sorts
  let conditions ← whereClause sorts
  let fields ← namedFieldsNode sorts
  return .branch .item (visibility ++ word :: .word name :: parameters ++ conditions ++ [fields])

/-! ### Calls and modules -/

/-- What the call of a macro in place of an item may begin with. -/
def callBeginnings : List String := ["identifier", "`self`", "`super`", "`crate`", "`::`"]

/-- The call of a macro in place of an item may begin here. -/
def beginsCall (tokens : List Token) : Bool :=
  isIdentifier tokens || isAnyOf ["self", "super", "crate"] tokens || isOp "::" tokens

/-- The call of a macro in place of an item, which may define a name. Without braces a semicolon
ends it. -/
def callItem (name : Parser (List Node)) : Parser Node := do
  let path ← plainPath
  let bang ← operator "!"
  let defined ← name
  let (delimiter, body) ← anyGroup
  let semicolon ← if delimiter = .brace then pure [] else one (operator ";")
  return .branch .item (path.node :: bang :: defined ++ body :: semicolon)

/-- The name that the call of a macro defines, if there is one. -/
def definedName : Parser (List Node) :=
  onlyIf (fun tokens => isIdentifier tokens || isWord "try" tokens) (one (wordNode anyWord))

/-- Items up to the last token. -/
def items (sorts : Sorts) : Parser (List Node) :=
  repeatWhile (fun tokens => !tokens.isEmpty) do
    let start ← ahead
    let attributes ← outerAttributes sorts
    one (sorts.item attributes start)

/-- A module, with what it holds or without. -/
def moduleItem (sorts : Sorts) : Parser Node := do
  let visibility ← visibility
  let safety ← keyword? "unsafe"
  let word ← keyword "mod"
  let name ← if isWord "try" (← ahead) then anyWord else identifier
  let tokens ← ahead
  let content ←
    if isOp ";" tokens then operator ";"
    else if isGroup .brace tokens then
      group .brace do
        let attributes ← innerAttributes sorts
        return attributes ++ (← items sorts)
    else expected ["`;`", "curly braces"]
  return .branch .item (visibility ++ safety ++ word :: .word name :: [content])

/-- Another library, under its own name or a new one. -/
def libraryItem : Parser Node := do
  let visibility ← visibility
  let word ← keyword "extern"
  let library ← keyword "crate"
  let name ← if isWord "self" (← ahead) then anyWord else identifier
  let other ← onlyIf (isWord "as") do
    let word ← keyword "as"
    let other ← if isWord "_" (← ahead) then anyWord else identifier
    return [word, .word other]
  return .branch .item (visibility ++ word :: library :: .word name :: other ++ [← operator ";"])

/-! ### Members -/

/-- The braces of a trait, an implementation or a foreign module, given how a member is read. -/
def membersOf (sorts : Sorts) (member : Parser Node) : Parser Node :=
  group .brace do
    let attributes ← innerAttributes sorts
    return attributes ++ (← repeatWhile (fun tokens => !tokens.isEmpty) (one member))

/-- The first words of members, as they are called where none of them stands. -/
def memberWords : List String := ["`fn`", "`const`", "`type`"]

/-- The body of a function, or a semicolon in its place. -/
def bodyOrSemicolon (sorts : Sorts) : Parser Node := do
  let tokens ← ahead
  if isGroup .brace tokens then blockWithAttributes sorts
  else if isOp ";" tokens then operator ";"
  else expected ["curly braces", "`;`"]

/-- A function of a trait. -/
def traitFunction (sorts : Sorts) : Parser (List Node) := do
  return [← signature sorts, ← bodyOrSemicolon sorts]

/-- A constant of a trait, and whether trees can say it. -/
def traitConstant (sorts : Sorts) : Parser (Bool × List Node) := do
  let second := afterOne (← ahead)
  if isIdentifier second || isWord "_" second then
    let found ← constant sorts
    return (!found.isGeneric, found.nodes)
  else if isAnyOf ["async", "unsafe", "extern", "fn"] second then
    return (true, ← traitFunction sorts)
  else
    let _ ← keyword "const"
    expected ["identifier", "`_`", "`async`", "`unsafe`", "`extern`", "`fn`"]

/-- A member of a trait. With a visibility, or as a default, it is kept as read. -/
def traitMember (sorts : Sorts) : Parser Node := do
  let start ← ahead
  let attributes ← outerAttributes sorts
  let visibility ← visibility
  let default ← keyword? "default"
  let isPlain := visibility.isEmpty && default.isEmpty
  let tokens ← ahead
  let (isSimple, nodes) ←
    if beginsFunction tokens then do
      pure (true, ← traitFunction sorts)
    else if isWord "const" tokens then traitConstant sorts
    else if isWord "type" tokens then do
      pure (true, (← typeName sorts .afterType).nodes)
    else if isPlain && beginsCall tokens then do
      pure (true, [← callItem (pure [])])
    else expected (memberWords ++ if isPlain then callBeginnings else [])
  if isPlain && isSimple then return .construct .item attributes nodes else keepFrom start

/-- A function of an implementation, and whether it has a body. -/
def implFunction (sorts : Sorts) : Parser (Bool × List Node) := do
  let signature ← signature sorts
  if isOp ";" (← ahead) then return (false, [signature, ← operator ";"])
  else return (true, [signature, ← blockWithAttributes sorts])

/-- A member of an implementation. One that is not complete is kept as read. -/
def implMember (sorts : Sorts) : Parser Node := do
  let start ← ahead
  let attributes ← outerAttributes sorts
  let visibility ← visibility
  let default ← onlyIf (fun tokens => isWord "default" tokens && !isOp "!" (afterOne tokens))
    (one (keyword "default"))
  let isPlain := visibility.isEmpty && default.isEmpty
  let tokens ← ahead
  let (isComplete, nodes) ←
    if beginsFunction tokens then implFunction sorts
    else if isWord "const" tokens then do
      let found ← constant sorts
      pure (!found.isGeneric && found.hasValue, found.nodes)
    else if isWord "type" tokens then do
      let found ← typeName sorts .afterType
      pure (!found.hasColon && found.hasType, found.nodes)
    else if isPlain && beginsCall tokens then do
      pure (true, [← callItem (pure [])])
    else
      expected <| (if default.isEmpty && !isWord "default" tokens then ["`default`"] else []) ++
        memberWords ++ if isPlain then callBeginnings else []
  if isComplete then return .construct .item attributes (visibility ++ default ++ nodes)
  else keepFrom start

/-- The mark of a function that is safe. -/
def isSafeMark : Node → Bool
  | .word text => text == "safe"
  | _ => false

/-- A function begins here that is marked as safe. -/
def isMarkedSafe (tokens : List Token) : Bool :=
  match functionQualities .foreign tokens with
  | .ok found => found.value.any isSafeMark
  | .error _ => false

/-- A function of another language, and whether trees can say it: it has no body, and is not marked
as safe. -/
def foreignFunction (sorts : Sorts) : Parser (Bool × List Node) := do
  let isSafe := isMarkedSafe (← ahead)
  let signature ← signatureAt .foreign sorts
  if isGroup .brace (← ahead) then
    return (false, [signature, ← blockWithAttributes sorts])
  else return (!isSafe, [signature, ← operator ";"])

/-- A static value of another language begins here. -/
def beginsForeignStatic (tokens : List Token) : Bool :=
  isWord "static" tokens ||
    (isAnyOf ["unsafe", "safe"] tokens && isWord "static" (afterOne tokens))

/-- A static value of another language, and whether trees can say it: it has no value, and nothing
is said of its safety. -/
def foreignStatic (sorts : Sorts) : Parser (Bool × List Node) := do
  let safety ← onlyIf (isAnyOf ["unsafe", "safe"]) (one (wordNode anyWord))
  let word ← keyword "static"
  let mutability ← keyword? "mut"
  let name ← identifier
  let colon ← operator ":"
  let type ← sorts.type true
  let value ← onlyIf (isOp "=") do
    return [← operator "=", ← sorts.expression]
  let semicolon ← operator ";"
  return (safety.isEmpty && value.isEmpty,
    word :: mutability ++ [.word name, colon, type, semicolon])

/-- A function, a value or a type of another language. One that says more than its name and type
is kept as read. -/
def foreignMember (sorts : Sorts) : Parser Node := do
  let start ← ahead
  let attributes ← outerAttributes sorts
  let visibility ← visibility
  let tokens ← ahead
  let (isSimple, nodes) ←
    if beginsFunctionAt .foreign tokens then foreignFunction sorts
    else if beginsForeignStatic tokens then foreignStatic sorts
    else if isWord "type" tokens then do
      let found ← typeName sorts .either
      pure (!found.hasColon && !found.hasType, found.nodes)
    else if visibility.isEmpty && beginsCall tokens then do
      pure (true, [← callItem (pure [])])
    else
      expected (["`fn`", "`static`", "`type`"] ++ if visibility.isEmpty then callBeginnings else [])
  if isSimple then return .construct .item attributes (visibility ++ nodes) else keepFrom start

/-- Functions, values and types of another language. -/
def foreignItem (sorts : Sorts) : Parser Node := do
  let safety ← keyword? "unsafe"
  let word ← keyword "extern"
  let name ← onlyIf isString (one string)
  return .branch .item (safety ++ word :: name ++ [← membersOf sorts (foreignMember sorts)])

/-! ### Traits and implementations -/

/-- A trait after its parameters. -/
def traitBody (sorts : Sorts) : Parser (List Node) := do
  let atEnd := fun tokens => isWord "where" tokens || isGroup .brace tokens
  let bounds ← boundedBy (separated "+" atEnd (one (sorts.bound ⟨false, true⟩)))
  let conditions ← whereClause sorts
  return bounds ++ conditions ++ [← membersOf sorts (traitMember sorts)]

/-- Another name for a sum of traits, after its parameters. -/
def traitAlias (sorts : Sorts) : Parser (List Node) := do
  let equals ← operator "="
  let atEnd := fun tokens => isWord "where" tokens || isOp ";" tokens
  let bounds ← separated "+" atEnd (one (sorts.bound ⟨false, false⟩))
  let conditions ← whereClause sorts
  return equals :: bounds ++ conditions ++ [← operator ";"]

/-- A trait, or another name for a sum of traits. -/
def traitItem (sorts : Sorts) : Parser Node := do
  let visibility ← visibility
  let safety ← keyword? "unsafe"
  let auto ← keyword? "auto"
  let word ← keyword "trait"
  let name ← identifier
  let parameters ← generics sorts
  let tokens ← ahead
  let isPlain := safety.isEmpty && auto.isEmpty
  let body ←
    if isPlain && isOp "=" tokens then traitAlias sorts
    else if isPlain && !isGroup .brace tokens && !isOp ":" tokens && !isWord "where" tokens then
      expected ["curly braces", "`:`", "`where`", "`=`"]
    else traitBody sorts
  return .branch .item <|
    visibility ++ safety ++ auto ++ word :: .word name :: parameters ++ body

/-- The type is a plain path, so that it can name a trait. -/
def isTraitName : Node → Bool
  | .branch .pathType [.branch .path _] => true
  | _ => false

/-- An implementation. One with a visibility, one that marks constness, and one of something else
than a trait for a type are kept as read. Only a trait can be denied. -/
def implItem (sorts : Sorts) (start : List Token) : Parser Node := do
  let visibility ← visibility
  let default ← keyword? "default"
  let safety ← keyword? "unsafe"
  let word ← keyword "impl"
  let parameters ← if beginsParameters (← ahead) then generics sorts else pure []
  let constness ←
    onlyIf (fun tokens =>
        isWord "const" tokens || (isOp "?" tokens && isWord "const" (afterOne tokens))) do
      let relaxed ← operator? "?"
      return relaxed ++ [← keyword "const"]
  let polarity ←
    onlyIf (fun tokens => isOp "!" tokens && !isGroup .brace (afterOne tokens)) (one (operator "!"))
  let first ← sorts.type true
  let target ← onlyIf (isWord "for") do
    return [← keyword "for", ← sorts.type true]
  if target.isEmpty && !polarity.isEmpty then refuse "inherent impls cannot be negative"
  else
    let conditions ← whereClause sorts
    let members ← membersOf sorts (implMember sorts)
    if !visibility.isEmpty || !constness.isEmpty || (!target.isEmpty && !isTraitName first) then
      keepFrom start
    else
      return .branch .item <|
        default ++ safety ++ word :: parameters ++ polarity ++ first :: target ++ conditions ++
          [members]

/-! ### Items by their first words -/

/-- A declaration of a macro is kept as read. -/
def macroItem (start : List Token) : Parser Node := do
  let _ ← visibility
  let _ ← keyword "macro"
  let _ ← identifier
  let hasInputs := isGroup .parenthesis (← ahead)
  let _ ← onlyIf (isGroup .parenthesis) (one (groupAsRead .parenthesis))
  if isGroup .brace (← ahead) then
    let _ ← groupAsRead .brace
    keepFrom start
  else expected (if hasInputs then ["curly braces"] else ["parentheses", "curly braces"])

/-- An item that begins with the word for what is outside: another library or language. -/
def outsideItem (sorts : Sorts) : Parser Node := do
  let start ← ahead
  let _ ← visibility
  let _ ← keyword "extern"
  let after ← ahead
  let resume {α : Type} (parser : Parser α) : Parser α := fun _ => parser start
  if isWord "crate" after then resume libraryItem
  else if isGroup .brace after then resume (foreignItem sorts)
  else if isString after then
    let _ ← string
    if isGroup .brace (← ahead) then resume (foreignItem sorts) else expected ["curly braces"]
  else expected ["`crate`", "curly braces", "string literal"]

/-- An item that is marked as unsafe and is no function, given what follows the mark. -/
def unsafeItem (sorts : Sorts) (start after : List Token) : Parser Node :=
  if isWord "trait" after || (isWord "auto" after && isWord "trait" (afterOne after)) then
    traitItem sorts
  else if isWord "impl" after then implItem sorts start
  else if isWord "extern" after then foreignItem sorts
  else if isWord "mod" after then moduleItem sorts
  else fun _ =>
    expected (["`trait`"] ++ (if isWord "auto" after then [] else ["`auto`"]) ++
      ["`impl`", "`extern`", "`mod`"]) after

/-- The first words of items, as they are called where none of them stands. -/
def itemBeginnings : List String :=
  ["fn", "extern", "use", "static", "const", "unsafe", "mod", "type", "struct", "enum", "union",
    "trait", "auto", "impl", "default", "macro"]

/-- The item that begins here, by the words after its visibility. -/
def itemOf (sorts : Sorts) (start after : List Token) (isInherited : Bool) : Parser Node :=
  let second := afterOne after
  if beginsFunction after then functionItem sorts start
  else if isWord "extern" after then outsideItem sorts
  else if isWord "use" after then useItem sorts start
  else if isWord "static" after then staticItem sorts start
  else if isWord "const" after then constantItem sorts start
  else if isWord "unsafe" after then unsafeItem sorts start second
  else if isWord "mod" after then moduleItem sorts
  else if isWord "type" after then typeItem sorts start
  else if isWord "struct" after then structItem sorts
  else if isWord "enum" after then enumItem sorts
  else if isWord "union" after && isIdentifier second then unionItem sorts
  else if isWord "trait" after || (isWord "auto" after && isWord "trait" second) then
    traitItem sorts
  else if isWord "impl" after || (isWord "default" after && !isOp "!" second) then
    implItem sorts start
  else if isWord "macro" after then macroItem start
  else if isInherited && beginsCall after then callItem definedName
  else
    fun _ =>
      let words := itemBeginnings.filter fun word => !isWord word after
      expected (words.map Text.ticked ++ if isInherited then callBeginnings else []) after

/-- An item after its attributes. -/
def itemWhere (sorts : Sorts) (attributes : List Node) (start : List Token) : Parser Node := do
  let tokens ← ahead
  match visibility tokens with
  | .ok found =>
    let item ← itemOf sorts start found.rest found.value.isEmpty
    return item.withAttributes attributes
  | .error mismatch => fun _ => .error mismatch

end Typestate.Grammar
