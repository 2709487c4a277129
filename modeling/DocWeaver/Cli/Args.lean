import DocWeaver.Text.Diff

/-!
Reading a command line into options and arguments.

Long options are written `--name` or `--name=value`; short ones `-x`, with a value either
attached (`-xvalue`) or as the next word, and flags may be grouped (`-vx`). A value option takes
the next word whatever it looks like. `--` ends the options. A command reads options anywhere
among its arguments; a group of commands stops at its first argument, the command's name.

An unknown long option is reported with the known ones that look like it: those whose
similarity to it, twice the matched characters over the total length, is at least 0.6, the
three most similar first.
-/

namespace DocWeaver.Cli

/-- How an option takes values. -/
inductive ValueKind where
  | flag
  | single
  | many
  deriving DecidableEq, Inhabited

/-- An option: the name its values are kept under, its long and short spellings, and how it
takes values. -/
structure OptSpec where
  dest : String
  long : String
  short : Option Char := none
  kind : ValueKind := .single
  deriving Inhabited

/-- A command line read: the values of each option in order, the order in which options first
appeared, and the arguments. -/
structure Parsed where
  values : List (String × List String) := []
  order : List String := []
  args : List String := []
  deriving Inhabited

def Parsed.add (p : Parsed) (dest value : String) : Parsed :=
  let values := match p.values.lookup dest with
    | some _ => p.values.map fun (k, xs) => if k == dest then (k, xs ++ [value]) else (k, xs)
    | none => p.values ++ [(dest, [value])]
  { p with values, order := if p.order.contains dest then p.order else p.order ++ [dest] }

def Parsed.last? (p : Parsed) (dest : String) : Option String := (p.values.lookup dest).bind (·.getLast?)

def Parsed.all (p : Parsed) (dest : String) : List String := (p.values.lookup dest).getD []

def Parsed.has (p : Parsed) (dest : String) : Bool := (p.values.lookup dest).isSome

def similarity (a b : String) : Nat × Nat :=
  let m := (Text.matchingBlocks (a.toList.map String.singleton) (b.toList.map String.singleton)).foldl
    (fun n x => n + x.size) 0
  (m, a.length + b.length)

def closeMatches (word : String) (candidates : List String) : List String :=
  let scored := candidates.filterMap fun c =>
    let (m, t) := similarity c word
    if t > 0 && 10 * 2 * m ≥ 6 * t then some (c, 2 * m, t) else none
  let better (x y : String × Nat × Nat) : Bool :=
    let (cx, mx, tx) := x
    let (cy, my, ty) := y
    mx * ty > my * tx || (mx * ty == my * tx && cx ≥ cy)
  ((scored.mergeSort better).take 3).map (·.1)

def noSuchOption (name : String) (longs : List String) : String :=
  let base := "No such option: " ++ name
  if name.startsWith "--" then
    match closeMatches name longs with
    | [] => base
    | [p] => base ++ " Did you mean " ++ p ++ "?"
    | ps => base ++ " (Possible options: " ++ ", ".intercalate (ps.mergeSort fun a b => decide (a ≤ b)) ++ ")"
  else base

def quoted (name : String) : String := "'" ++ name ++ "'"

def shortOpts (specs : List OptSpec) (longs : List String) (p : Parsed) :
    List Char → List String → Except String (Parsed × List String)
  | [], rest => .ok (p, rest)
  | c :: cs, rest =>
    match specs.find? (·.short == some c) with
    | none => .error (noSuchOption ("-" ++ String.singleton c) longs)
    | some o =>
      if o.kind == .flag then shortOpts specs longs (p.add o.dest "") cs rest
      else if !cs.isEmpty then .ok (p.add o.dest (String.ofList cs), rest)
      else match rest with
        | v :: rest => .ok (p.add o.dest v, rest)
        | [] => .error ("Option " ++ quoted ("-" ++ String.singleton c) ++ " requires an argument.")

/-- Reads a command line. With `interspersed`, options may follow arguments; without, reading
stops at the first argument and the rest are arguments. -/
def parseArgs (specs : List OptSpec) (interspersed : Bool) : Nat → Parsed → List String → Except String Parsed
  | 0, p, rest => .ok { p with args := p.args ++ rest }
  | _, p, [] => .ok p
  | fuel + 1, p, a :: rest =>
    let longs := specs.map (·.long)
    if a == "--" then .ok { p with args := p.args ++ rest }
    else if a.startsWith "-" && a.length > 1 then
      let (name, explicit) := match a.splitOn "=" with
        | n :: v :: more => (n, some ("=".intercalate (v :: more)))
        | _ => (a, none)
      match specs.find? (·.long == name) with
      | some o =>
        match o.kind, explicit with
        | .flag, some _ => .error ("Option " ++ quoted name ++ " does not take a value.")
        | .flag, none => parseArgs specs interspersed fuel (p.add o.dest "") rest
        | _, some v => parseArgs specs interspersed fuel (p.add o.dest v) rest
        | _, none =>
          match rest with
          | v :: rest => parseArgs specs interspersed fuel (p.add o.dest v) rest
          | [] => .error ("Option " ++ quoted name ++ " requires an argument.")
      | none =>
        if a.startsWith "--" then .error (noSuchOption name longs)
        else match shortOpts specs longs p (a.toList.drop 1) rest with
          | .ok (p, rest) => parseArgs specs interspersed fuel p rest
          | .error e => .error e
    else if interspersed then parseArgs specs interspersed fuel { p with args := p.args ++ [a] } rest
    else .ok { p with args := p.args ++ a :: rest }

def parse (specs : List OptSpec) (interspersed : Bool) (args : List String) : Except String Parsed :=
  parseArgs specs interspersed (args.length + 1) {} args

end DocWeaver.Cli
