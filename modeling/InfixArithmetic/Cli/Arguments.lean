/-!
Command line arguments split into items: flags, options with their values, and free arguments.
Assumed of the library that does this:

* a long flag starts with two dashes; short flags start with a single dash and may share one
  argument, which an option with its value may end;
* a value follows its option in the same argument, after an equals sign that a short option may
  leave out, or else is the next argument;
* an option takes no value that looks like a flag, unless it is declared to take values with a dash;
* a single dash alone is a free argument, and two dashes alone make all later arguments free.
-/

namespace InfixArithmetic.Cli

inductive ValueOption where
  | parser
  | simplify
deriving DecidableEq, Repr

inductive Flag where
  | tree
  | postfixInput
  | verbose
  | quiet
deriving DecidableEq, Repr

inductive Item where
  | flag (flag : Flag)
  | option (option : ValueOption) (value : Option String)
  | free (text : String)
  | version
  | help
  | unknown (argument : List Char)
deriving DecidableEq, Repr

/-- The items in one argument, and the option at its end that still asks for a value. -/
structure Items where
  found : List Item
  awaiting : Option ValueOption := none
deriving DecidableEq, Repr

namespace Items

def cons (item : Item) (items : Items) : Items :=
  { items with found := item :: items.found }

/-- A short option with the characters after it. An equals sign before the value is optional. -/
def ofShortOption (option : ValueOption) : List Char → Items
  | [] => ⟨[], some option⟩
  | '=' :: value => ⟨[.option option (some (String.ofList value))], none⟩
  | value => ⟨[.option option (some (String.ofList value))], none⟩

/-- The items in the characters that follow a single dash. -/
def ofCluster : List Char → Items
  | [] => ⟨[], none⟩
  | 't' :: rest => cons (.flag .tree) (ofCluster rest)
  | 'v' :: rest => cons (.flag .verbose) (ofCluster rest)
  | 'q' :: rest => cons (.flag .quiet) (ofCluster rest)
  | 'V' :: rest => cons .version (ofCluster rest)
  | 'h' :: rest => cons .help (ofCluster rest)
  | 'p' :: value => ofShortOption .parser value
  | 's' :: value => ofShortOption .simplify value
  | unknown => ⟨[.unknown unknown], none⟩

/-- The item in the characters that follow two dashes, where `value` is what stands after an equals
sign. -/
def ofLong (name : List Char) (value : Option String) : Items :=
  match String.ofList name, value with
  | "tree", none => ⟨[.flag .tree], none⟩
  | "postfix-input", none => ⟨[.flag .postfixInput], none⟩
  | "verbose", none => ⟨[.flag .verbose], none⟩
  | "quiet", none => ⟨[.flag .quiet], none⟩
  | "version", none => ⟨[.version], none⟩
  | "help", none => ⟨[.help], none⟩
  | "parser", none => ⟨[], some .parser⟩
  | "simplify", none => ⟨[], some .simplify⟩
  | "parser", some value => ⟨[.option .parser (some value)], none⟩
  | "simplify", some value => ⟨[.option .simplify (some value)], none⟩
  | _, _ => ⟨[.unknown name], none⟩

/-- The items in one argument. A single dash alone is a free argument. -/
def ofArgument (argument : String) : Items :=
  match argument.toList with
  | '-' :: '-' :: long =>
      let name := long.takeWhile (· ≠ '=')
      match long.dropWhile (· ≠ '=') with
      | [] => ofLong name none
      | _ :: value => ofLong name (some (String.ofList value))
  | '-' :: c :: cluster => ofCluster (c :: cluster)
  | _ => ⟨[.free argument], none⟩

end Items

/-- Whether an option takes the next argument as its value. A height may be negative. -/
def ValueOption.accepts (option : ValueOption) (argument : String) : Bool :=
  match option with
  | simplify => true
  | parser =>
      match argument.toList with
      | '-' :: _ :: _ => false
      | _ => true

/-- The items of a command line, where `awaiting` asks for a value. -/
def readItems (awaiting : Option ValueOption) : List String → List Item
  | [] => awaiting.toList.map fun option => .option option none
  | argument :: rest =>
      match awaiting.filter fun option => option.accepts argument with
      | some option => .option option (some argument) :: readItems none rest
      | none =>
          let lacking := awaiting.toList.map fun option => Item.option option none
          if argument = "--" then
            lacking ++ rest.map .free
          else
            let items := Items.ofArgument argument
            lacking ++ items.found ++ readItems items.awaiting rest

end InfixArithmetic.Cli
