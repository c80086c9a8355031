import CodeIndex.CommandLine.Arguments
import CodeIndex.CommandLine.Report
import CodeIndex.Config.Loading
import CodeIndex.Index.Remote
import CodeIndex.Index.Search

/-! Carrying out commands. -/

namespace CodeIndex.CommandLine

open Config (Environment Settings)
open Index (Attempt IndexError Job Remote ServiceError Services World)
open Store (Filter QueryOptions)

/-- Why a command comes to no good end: it has failed, or it was broken off. -/
inductive Stop where
  | failed (failure : Failure)
  | broken (f : Fault)
  deriving DecidableEq, Repr

namespace Stop

/-- Something was tried in vain when this happened. -/
def within (message : String) : Stop → Stop
  | failed failure => failed (failure.within message)
  | broken f => broken f

/-- What is printed. -/
def text : Stop → List String
  | failed failure => failure.text
  | broken f => [f.message]

def exitCode : Stop → Nat
  | failed _ => 1
  | broken _ => 101

end Stop

/-- What a command prints, and what stops it if something does. -/
structure Output where
  lines : List String := []
  errors : List String := []
  stop : Option Stop := none
  deriving DecidableEq, Repr

/-- The output of a job: its lines, or what stops it. -/
def report {ε α : Type} (stop : ε → Stop) (done : α → Output) (job : Attempt ε α) :
    Job Output := do
  match ← job.run with
  | .ok a => pure (done a)
  | .error e => pure { stop := some (stop e) }

def indexStop : IndexError → Stop
  | .fault f => .broken f
  | e => .failed ⟨e.message, e.causes⟩

def serviceStop : ServiceError → Stop
  | .index reason => indexStop reason
  | .fault f => .broken f
  | e => .failed ⟨e.message, e.causes⟩

/-- Brings a file, or all files below a directory, up to date. -/
def reconcile (o : Chunk.Options) (collection path : String) : Job Output := do
  if ← Index.Task.perform (Index.Action.isDirectory path) then
    report indexStop (fun r =>
        { lines := [treeLine r], errors := r.errors.map fun e => s!"error: {e}" })
      (Index.reconcileTree o collection path)
  else
    report (fun e => (indexStop e).within s!"failed to reconcile {path}")
      (fun r => { lines := [fileLine path r] })
      (ExceptT.mk (Index.reconcileFile o collection path))

def Query.options (q : Query) : QueryOptions where
  limit := q.limit
  scoreThreshold := q.scoreThreshold
  filter := q.file.map Filter.forFile

/-- Carries out a command.  The files in `changed` are those that were reported as changed while the
command to watch was under way; whatever ends the work on them, the command itself waits on. -/
def execute (o : Chunk.Options) (collection : String) (changed : List String) :
    Command → Job Output
  | .createCollection =>
    report serviceStop (fun _ => { lines := [s!"created collection {collection}"] })
      (Index.createCollection collection)
  | .query q =>
    report serviceStop
      (fun hits =>
        { lines := if q.json then [(hitsJson hits).pretty] else hits.map hitLine })
      (Index.search collection q.text q.options)
  | .reconcile path => reconcile o collection path
  | .watch => do
    let _ ← (Index.reindex o collection changed).run
    pure {}
  | .clear true =>
    report serviceStop (fun _ => { lines := [s!"cleared collection {collection}"] })
      (Index.clearCollection collection)
  | .clear false =>
    pure { stop := some (.failed ⟨s!"refusing to clear {collection} without --yes", []⟩) }

/-- What the program needs to know before it carries out a command. -/
structure Plan where
  settings : Settings
  collection : String
  command : Command
  store : Qdrant.Client
  embedder : Embedding.Client

/-- The embedder of settings. -/
def embedderOf (s : Config.EmbeddingSettings) : Embedding.Client :=
  .new ((s.apiKey.map (·.value)).getD "") s.baseUrl s.model

/-- Makes the clients for a command, unless its settings could not be loaded. -/
def Invocation.plan (i : Invocation) (loaded : Except Config.LoadError Settings) :
    Except Failure Plan := do
  let settings ← loaded.mapError fun e => Failure.ofChain e.chain
  let store ← (Qdrant.Client.new settings.store.url settings.embedding.dimensions).mapError fun e =>
    ⟨s!"failed to create qdrant client for {settings.store.url}", [e.message]⟩
  pure {
    settings, store
    collection := i.collection.getD settings.store.collection
    command := i.command
    embedder := embedderOf settings.embedding }

/-- Loads the settings for a command and makes the clients. -/
def prepare (i : Invocation) (files : Files.Entry) (env : Environment) : Except Failure Plan :=
  i.plan (Config.load files i.config env)

def Plan.job (p : Plan) (changed : List String) : Job Output :=
  execute p.settings.chunks p.collection changed p.command

/-- What the program leaves behind: its exit code, and what it wrote. -/
structure Exit where
  code : Nat
  output : List String := []
  errors : List String := []
  deriving DecidableEq, Repr

/-- The end after a command.  The client of the store says first that it could not compare
versions. -/
def Output.exit (o : Output) : Exit where
  code := (o.stop.map Stop.exitCode).getD 0
  output := Qdrant.versionNotice :: o.lines
  errors := o.errors ++ (o.stop.map Stop.text).getD []

/-- The end before a command. -/
def Failure.exit (f : Failure) : Exit := { code := 1, errors := f.text }

end CodeIndex.CommandLine
