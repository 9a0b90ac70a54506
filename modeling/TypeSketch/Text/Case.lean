import TypeSketch.Text.Lines

/-!
# Spellings of a name

A name is a sequence of words. `snakeCase` writes the words in small letters with `_` between them,
`pascalCase` writes each word with a capital first letter and nothing between them.
-/

namespace TypeSketch.Text

/-- Snake case of the rest of a name. A word starts at a capital that follows a small letter or a
digit (`afterLower`) and at a hyphen or space; a separator is not written after another
(`afterBar`). -/
def snakeFrom (afterLower afterBar : Bool) : List Char → List Char
  | [] => []
  | c :: cs =>
    if c == '-' || c == ' ' then
      if afterBar then snakeFrom false true cs else '_' :: snakeFrom false true cs
    else if isUppercase c then
      let small := toLower c
      (if afterLower then ['_'] else []) ++ small ++
        snakeFrom false (small.getLast? == some '_') cs
    else c :: snakeFrom (isLowercase c || isAsciiDigit c) (c == '_') cs

/-- `OrderId`, `orderId`, `order-id` and `order id` all become `order_id`. -/
def snakeChars (cs : List Char) : List Char := snakeFrom false false cs

/-- `OrderId`, `orderId`, `order-id` and `order id` all become `order_id`. -/
def snakeCase (name : String) : String := String.ofList (snakeChars name.toList)

/-- A word with its first letter in upper case. -/
def capitalize : List Char → List Char
  | [] => []
  | c :: cs => toUpper c ++ cs

/-- `order_fill`, `orderFill` and `order-fill` all become `OrderFill`. -/
def pascalChars (cs : List Char) : List Char :=
  ((pieces '_' (snakeChars cs)).filter (!·.isEmpty)).flatMap capitalize

/-- `order_fill`, `orderFill` and `order-fill` all become `OrderFill`. -/
def pascalCase (name : String) : String := String.ofList (pascalChars name.toList)

/-- A name below a path of names: joined with `_`, or alone below the empty path. -/
def joinName (path name : String) : String := if path.isEmpty then name else path ++ "_" ++ name

end TypeSketch.Text
