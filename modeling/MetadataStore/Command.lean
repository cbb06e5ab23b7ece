import MetadataStore.Repository.Disposal

/-!
# `Command` — maintenance from a command line

A command lists the attributes of a repository, defines one, or disposes of what a tenant has given up.
It answers with lines.

## Contents
- `Command`, `Command.ofWords`.
- `AttributeInfo.line`, `Command.perform`, `Command.run`.
- `Command.cutSettings`, the name of a settings file in front of a command.
-/

namespace MetadataStore

/-- Something to do with a repository. -/
inductive Command where
  | attributes
  | define (name : String) (kind : Kind) (scalar : Bool)
  | dispose (tenant : Int32)
  deriving DecidableEq, Repr

namespace Command

/-- The name of a settings file, if there is one in front, and the words of the command. -/
def cutSettings : List String → Option String × List String
  | "--config" :: file :: words => (some file, words)
  | words => (none, words)

/-- The command that words ask for. -/
def ofWords : List String → Except Fault Command
  | ["attributes"] => .ok .attributes
  | "define" :: name :: kindName :: rest =>
    match Kind.ofName? kindName with
    | some kind => .ok (.define name kind (rest == ["scalar"]))
    | none => .error (.unknownKindName kindName)
  | ["dispose", text] =>
    match Number.int32? text with
    | some tenant => .ok (.dispose tenant)
    | none => .error (.badTenant text)
  | _ => .error .usage

/-- Blanks that a text lacks to a width. -/
def lacking (width : Nat) (text : String) : String :=
  String.ofList (List.replicate (width - text.length) ' ')

/-- A definition as a line: its number to the right of six places, its name to the left of forty, its
kind. -/
def definitionLine (info : AttributeInfo) : String :=
  let id := Text.integer info.id
  lacking 6 id ++ id ++ "  " ++ info.name ++ lacking 40 info.name ++ " " ++ info.kind.name ++
    if info.scalar then " (scalar)" else ""

/-- What a command does, with the lines that it answers. -/
def perform : Command → Action Repository (List String)
  | .attributes => do
    let infos ← Repository.infos
    pure (infos.map definitionLine)
  | .define name kind scalar => do
    let info ← Repository.define name kind scalar
    pure [Text.integer info.id ++ " " ++ info.name]
  | .dispose tenant => do
    let count ← Repository.dispose tenant
    pure [Text.integer count ++ " units disposed"]

/-- What the command of some words does. -/
def run (words : List String) : Action Repository (List String) := do
  let command ← Action.ofResult (ofWords words)
  command.perform

end Command

end MetadataStore
