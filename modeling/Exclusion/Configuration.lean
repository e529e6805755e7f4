import Exclusion.Document.Decode
import Exclusion.Document.Read
import Exclusion.Duration.Read
import Exclusion.Filter

/-! # Configurations

A configuration is a document with one table for each dialect and settings for all of them. Other keys
at the top are reported and have no effect; other keys in the table of a dialect are mismatches.
-/

namespace Exclusion

open Document

def RegexOptions.fields : List (Document.Field RegexOptions) := [
  .of "patterns" (.sequence .string) fun o ps => { o with patterns := ps },
  .of "literal" .boolean fun o b => { o with literal := b },
  .of "concurrent" .boolean fun o b => { o with concurrent := b }]

def GlobOptions.fields : List (Document.Field GlobOptions) := [
  .of "patterns" (.sequence .string) fun o ps => { o with patterns := ps },
  .of "raw" (.sequence .string) fun o raw => { o with raw := raw },
  .of "concurrent" .boolean fun o b => { o with concurrent := b }]

def GitIgnoreOptions.fields : List (Document.Field GitIgnoreOptions) := [
  .of "patterns" (.sequence .string) fun o ps => { o with patterns := ps },
  .of "file" (.stringAs "path string") fun o file => { o with file := some file },
  .of "concurrent" .boolean fun o b => { o with concurrent := b }]

def Document.Decoder.duration : Decoder Duration := fun v => do
  match Duration.ofText (← Decoder.string v) with
  | .ok d => return d
  | .error message => Decoder.fail (.told message)

def Document.Decoder.dialect : Decoder Dialect :=
  .choice ([Dialect.unknown, .gitignore, .glob, .regex].map fun d => (d.name, d))

namespace FilterOptions

def fields : List (Document.Field FilterOptions) := [
  .of "regex" (.record "RegexOptions" RegexOptions.fields ⟨[], false, false⟩)
    fun o s => { o with regex := some s },
  .of "glob" (.record "GlobOptions" GlobOptions.fields ⟨[], [], false⟩)
    fun o s => { o with glob := some s },
  .of "gitignore" (.record "GitIgnoreOptions" GitIgnoreOptions.fields ⟨[], none, false⟩)
    fun o s => { o with gitignore := some s },
  .of "timeout" .duration fun o d => { o with timeout := some d },
  .of "concurrent" .boolean fun o b => { o with concurrent := b },
  .of "order" (.sequence .dialect) fun o ds => { o with order := some ds }]

def decode : Decoder FilterOptions := .record "FilterOptions" fields empty

/-- The keys that mean something at the top of a configuration. -/
def knownKeys : List String :=
  ["regex", "glob", "gitignore", "timeout", "concurrent", "order"]

def warnUnknown (path key : String) : Build Unit :=
  Build.warn (path ++ ": unrecognized field `" ++ key ++ "`, ignoring")

def ofEntries (path : String) (entries : List (String × Value)) : Build FilterOptions := do
  let (known, unknown) := entries.partition fun e => e.1 ∈ knownKeys
  unknown.forM fun e => warnUnknown path e.1
  match decode (.table known) with
  | .ok o => return o
  | .error m => throw (.config (some path) (.mismatch m))

/-- Reads options from the text of a configuration, which is said to be at `path`. -/
def ofText (path text : String) : Build FilterOptions :=
  match Document.ofText? text with
  | some entries => ofEntries path entries
  | none => throw (.config (some path) .noDocument)

/-- Looks for the file of rule lines beside the configuration. -/
def besides (path : String) (o : FilterOptions) : FilterOptions :=
  match o.gitignore, Files.parent? path with
  | some s, some directory =>
    { o with gitignore := some { s with file := s.file.map (Files.join directory) } }
  | _, _ => o

def ofFile (files : Files) (path : String) : Build FilterOptions := do
  let text ← liftExcept (files.readText path)
  return (← ofText path text).besides path

end FilterOptions

end Exclusion
