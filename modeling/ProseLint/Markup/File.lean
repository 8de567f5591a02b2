import ProseLint.Markup.Reading
import ProseLint.Markup.Path
import ProseLint.Text.Quoted
import ProseLint.Text.Utf8

/-! Reading files. What stands at a path is given by a function, so nothing here depends on
a file system. -/

namespace ProseLint

/-- What stands at a path. -/
inductive FileContent where
  | missing
  | directory
  | bytes (content : List UInt8)

/-- Why a file cannot be read. -/
inductive FileError where
  | missing (path : Text)
  | directory (path : Text)
  | input (error : InputError)

namespace FileError

def message : FileError → Text
  | .missing path => "File not found: ".toList ++ path
  | .directory path => "[Errno 21] Is a directory: ".toList ++ Quoted.showText path
  | .input error => error.display

end FileError

namespace FileContent

/-- The text of a file, with every line ending as a line feed. -/
def text (content : List UInt8) : Except Utf8.Fault Text :=
  (Utf8.decode content).map Text.unifyNewlines

end FileContent

/-- Reads a document from a file. Superfluous parts of the path do not count. Without the
name of a format the extension decides. The format that was named is looked up last. -/
def readPath (files : Text → FileContent) (path : Text) (formatName : Option Text)
    (extractor : Extractor) (tokenizer : Option Tokenizer) : Except FileError Reading := do
  let name := Path.normalize path
  let content := files name
  match content with
  | .missing => throw (.missing path)
  | _ =>
      let detected ← match formatName with
        | some f => pure f
        | none => ((Format.ofPath name).map (·.name.toList)).mapError .input
      match content with
      | .bytes bytes =>
          let text ← (FileContent.text bytes).mapError fun fault =>
            .input (.undecodable name fault)
          let format ← (Format.ofName detected).mapError .input
          return format.read ⟨extractor, some name, tokenizer⟩ text
      | _ => throw (.directory name)

end ProseLint
