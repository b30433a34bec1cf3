import FlowEngine.Cli.Parameter

/-!
# Help for commands

## Main definitions

* `Parameter.listing`, `Parameter.remarks`: a parameter in a list of parameters.
* `CommandSpec.helpLines`: the help for a command.
-/

namespace FlowEngine

namespace Parameter

/-- The parameter as lists show it. -/
def listing (p : Parameter) : String :=
  if p.positional then "  " ++ p.usage
  else "  " ++ (p.letter.elim "    " fun c => "-" ++ String.singleton c ++ ", ") ++ p.usage

/-- What lists say about a parameter. -/
def remarks (p : Parameter) : String :=
  p.help ++ (p.default.elim "" fun d => " [default: " ++ d ++ "]") ++
    if p.kind.choices.isEmpty then ""
    else " [possible values: " ++ String.intercalate ", " p.kind.choices ++ "]"

/-- The word by which options of one rank are ordered: the letter, a small one before a capital
one, or else the long name. -/
def sortKey (p : Parameter) : String :=
  p.letter.elim p.long fun c =>
    (String.singleton c.toLower).push (if c.isLower then '0' else '1')

end Parameter

namespace CommandSpec

/-- The number of columns of a page. -/
def pageWidth : Nat := 100

/-- The columns that a list needs besides the longest usage of its options. -/
def listMargin : Nat := 8

/-- A table of two columns. -/
def table (rows : List (String × String)) : List String :=
  let width := rows.foldl (fun w r => max w r.1.length) 0
  rows.map fun (left, right) => left ++ "".pushn ' ' (width + 2 - left.length) ++ right

/-- Whether remarks do not fit beside options on a page: the options take more than two fifths of
it, and some remark is wider than the rest. -/
def isCrowded (options : List Parameter) : Bool :=
  let left := options.foldl (fun w p => max w p.usage.length) 0 + listMargin
  2 * pageWidth < 5 * left && options.any fun p => pageWidth - left < p.remarks.length

/-- The rank of every option. The options of a command are ranked from the first on; what every
command has shares the first rank, except that help comes last. -/
def ranked (c : CommandSpec) : List (Nat × Parameter) :=
  let own := c.options.mapIdx fun i p => (i, p)
  if c.isPlain then own
  else own ++ [(0, .verboseFlag), (c.options.length + 1, .helpFlag)]

/-- The options in the order of lists: by rank, and of one rank by their words. -/
def listed (c : CommandSpec) : List Parameter :=
  let before (x y : Nat × Parameter) : Bool :=
    x.1 < y.1 || x.1 == y.1 && x.2.sortKey ≤ y.2.sortKey
  (c.ranked.mergeSort before).map Prod.snd

/-- A list of options. Remarks that do not fit beside them stand on lines of their own. -/
def optionLines (options : List Parameter) : List String :=
  if isCrowded options then options.flatMap fun p => [p.listing, "".pushn ' ' 10 ++ p.remarks]
  else table (options.map fun p => (p.listing, p.remarks))

/-- A part of the help, unless it has no content. -/
def part (title : String) (content : List String) : List String :=
  if content.isEmpty then [] else "" :: title :: content

/-- The help for a command. -/
def helpLines (c : CommandSpec) : List String :=
  [c.help, "", c.usage] ++
    part "Commands:" (table (c.commands.map fun s => ("  " ++ s.name, s.help))) ++
    part "Arguments:" (table (c.argument.toList.map fun p => (p.listing, p.remarks))) ++
    part "Options:" (optionLines c.listed)

end CommandSpec

end FlowEngine
