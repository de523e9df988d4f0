import DocScaffold.Item.Keyword

/-!
# Example code

The code block of an `Examples` section, fences included.
-/

namespace DocScaffold

/-- An arm of a `match`. -/
structure Example.Arm where
  pattern : Text
  handler : Text

inductive Example
  | call (name : Text) (isAsync isUnsafe : Bool) (safety : Text)
  | construct (name : Text) (isTuple : Bool) (fields : List Text)
  | inspect (binding name value : Text) (arms : List Example.Arm)

namespace Example

def fence : Text := "```"

/-- Code that should not be run says so behind the fence. -/
def openingFence : Example → Text
  | call _ isAsync isUnsafe _ => if isAsync || isUnsafe then "```no_run" else fence
  | _ => fence

/-- The lines behind the import. -/
def codeLines : Example → List Text
  | call name true true safety => [
      "async \x7b",
      "  ".toList ++ safety,
      "  let result = unsafe \x7b ".toList ++ name ++ "().await \x7d;".toList,
      "\x7d;"]
  | call name true false _ => [
      "async \x7b",
      "  let result = ".toList ++ name ++ "().await;".toList,
      "\x7d;"]
  | call name false true safety => [
      safety,
      "unsafe \x7b",
      "  let _ = ".toList ++ name ++ "();".toList,
      "\x7d"]
  | call name false false _ => ["let _ = ".toList ++ name ++ "();".toList]
  | construct name true fields =>
    let values := Text.listed (fields.map fun _ => "value".toList)
    ["let s = ".toList ++ name ++ "(".toList ++ values ++ ");".toList]
  | construct name false fields =>
    ["let s = ".toList ++ name ++ " \x7b".toList] ++
      fields.map (fun field => "    ".toList ++ field ++ ": value,".toList) ++ ["\x7d;".toList]
  | inspect binding name value arms =>
    ["let ".toList ++ binding ++ " = ".toList ++ name ++ "::".toList ++ value ++ ";".toList,
      "match ".toList ++ binding ++ " \x7b".toList] ++
      arms.map (fun arm => "    ".toList ++ name ++ "::".toList ++ arm.pattern ++ " => ".toList ++
        arm.handler ++ ",".toList) ++ ["\x7d".toList]

/-- The code block; `module` stands for the path behind `crate::`. -/
def text (module : Text) (e : Example) : Text :=
  List.intercalate ['\n'] ([e.openingFence, "use crate::".toList ++ module ++ ";".toList, []] ++
    e.codeLines ++ [fence])

/-- The lines of the code block. What is put into it may hold line ends of its own. -/
def lines (module : Text) (e : Example) : List Text := Text.lines (e.text module)

end Example

end DocScaffold
