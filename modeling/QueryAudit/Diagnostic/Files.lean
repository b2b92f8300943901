import QueryAudit.Diagnostic.Span

/-! Names and texts of source files, numbered from zero in the order they were added. -/
namespace QueryAudit

/-- Whatever knows files by their numbers. A file may have a text without a name, or neither. -/
class SourceProvider (σ : Type) where
  name? : σ → FileId → Option String
  text? : σ → FileId → Option String

/-- A file; its text may not be known. -/
structure SourceFile where
  name : String
  text : Option String := none
  deriving DecidableEq

structure SourceFiles where
  files : Array SourceFile := #[]

namespace SourceFiles

def add (sources : SourceFiles) (file : SourceFile) : FileId × SourceFiles :=
  (⟨sources.files.size⟩, ⟨sources.files.push file⟩)

def ofList (files : List SourceFile) : SourceFiles :=
  ⟨files.toArray⟩

def name? (sources : SourceFiles) (file : FileId) : Option String :=
  sources.files[file.index]?.map SourceFile.name

def text? (sources : SourceFiles) (file : FileId) : Option String :=
  sources.files[file.index]? >>= SourceFile.text

instance : SourceProvider SourceFiles where
  name? := name?
  text? := text?

@[simp] theorem provided_name? (sources : SourceFiles) (file : FileId) :
    SourceProvider.name? sources file = sources.name? file :=
  rfl

@[simp] theorem provided_text? (sources : SourceFiles) (file : FileId) :
    SourceProvider.text? sources file = sources.text? file :=
  rfl

end SourceFiles
end QueryAudit
