import CodeIndex.Proofs.Config.Loading

/-! The layers that settings come from.  Each setting has a variable and a place in the document of
its own.  It is the value of its variable, if that is set to such a value, or else the value in the
document, if there is one, or else its default.  Whether settings are accepted is decided on what
the layers give together. -/

namespace CodeIndex.Config

open Files (Entry)

/-! ### The table of settings -/

/-- What a setting can hold: a text, a secret if any, or a whole number of so many bits. -/
inductive Kind where
  | text
  | secret
  | word (bits : Nat)

namespace Kind

abbrev Value : Kind → Type
  | text => String
  | secret => Option Secret
  | word _ => Nat

/-- What a variable is taken for. -/
def ofVariable? : (k : Kind) → String → Option k.Value
  | text, s => some s
  | secret, s => some (some ⟨s⟩)
  | word bits, s => Numeric.readWord? bits s

/-- What a value in a document is taken for. -/
def ofDocument? : (k : Kind) → Toml.Value → Option k.Value
  | text, v => text? v
  | secret, v => (text? v).map fun key => some ⟨key⟩
  | word bits, v => word? bits v

end Kind

inductive Setting where
  | baseUrl
  | model
  | apiKey
  | dimensions
  | timeout
  | storeUrl
  | collection
  | maxSize
  | overlap
  | watchUrl
  | baseInterval
  | maxAttempts
  deriving DecidableEq

namespace Setting

abbrev kind : Setting → Kind
  | baseUrl => .text
  | model => .text
  | apiKey => .secret
  | dimensions => .word 64
  | timeout => .word 64
  | storeUrl => .text
  | collection => .text
  | maxSize => .word 64
  | overlap => .word 64
  | watchUrl => .text
  | baseInterval => .word 64
  | maxAttempts => .word 32

abbrev Value (x : Setting) : Type := x.kind.Value

def variableName : Setting → String
  | baseUrl => "CODESYNC_EMBEDDING_BASE_URL"
  | model => "CODESYNC_EMBEDDING_MODEL"
  | apiKey => "CODESYNC_EMBEDDING_API_KEY"
  | dimensions => "CODESYNC_EMBEDDING_DIMENSIONS"
  | timeout => "CODESYNC_EMBEDDING_TIMEOUT_SECS"
  | storeUrl => "CODESYNC_QDRANT_URL"
  | collection => "CODESYNC_COLLECTION"
  | maxSize => "CODESYNC_CHUNK_MAX_SIZE"
  | overlap => "CODESYNC_CHUNK_OVERLAP"
  | watchUrl => "CODESYNC_WATCH_URL"
  | baseInterval => "CODESYNC_WATCH_BASE_INTERVAL_MS"
  | maxAttempts => "CODESYNC_WATCH_MAX_RECONNECT_ATTEMPTS"

/-- The section of a setting in a document, its name there, and its place when the section is a
list. -/
def home : Setting → String × String × Nat
  | baseUrl => ("embedding", "base_url", 0)
  | model => ("embedding", "model", 1)
  | apiKey => ("embedding", "api_key", 2)
  | dimensions => ("embedding", "dimensions", 3)
  | timeout => ("embedding", "timeout_secs", 4)
  | storeUrl => ("qdrant", "url", 0)
  | collection => ("qdrant", "collection", 1)
  | maxSize => ("chunker", "max_size", 0)
  | overlap => ("chunker", "overlap", 1)
  | watchUrl => ("watch", "url", 0)
  | baseInterval => ("watch", "base_interval_ms", 1)
  | maxAttempts => ("watch", "max_reconnect_attempts", 2)

def get (s : Settings) : (x : Setting) → x.Value
  | baseUrl => s.embedding.baseUrl
  | model => s.embedding.model
  | apiKey => s.embedding.apiKey
  | dimensions => s.embedding.dimensions
  | timeout => s.embedding.timeout
  | storeUrl => s.store.url
  | collection => s.store.collection
  | maxSize => s.chunks.maxSize
  | overlap => s.chunks.overlap
  | watchUrl => s.watch.url
  | baseInterval => s.watch.baseInterval
  | maxAttempts => s.watch.maxAttempts

def default (x : Setting) : x.Value := get {} x

/-- The value that the environment gives: that of a variable which is set, and set to a value of the
kind. -/
def given (env : Environment) (x : Setting) : Option x.Value :=
  (env x.variableName).bind x.kind.ofVariable?

/-- The value that a section gives. -/
def writtenIn (sec : Section) (x : Setting) : Option x.Value :=
  (sec.get? x.home.2.1 x.home.2.2).bind x.kind.ofDocument?

/-- The value that a document with these entries gives. -/
def written (entries : List (String × Toml.Value)) (x : Setting) : Option x.Value :=
  ((entries.lookup x.home.1).bind Section.ofValue?).bind fun sec => writtenIn sec x

/-- The value of the environment, or else that of the document, or else the default. -/
def layered (entries : List (String × Toml.Value)) (env : Environment) (x : Setting) : x.Value :=
  (x.given env).getD ((x.written entries).getD x.default)

theorem variableName_injective : Function.Injective variableName := by
  intro x y
  cases x <;> cases y <;> decide

/-! ### The layers of one setting -/

variable {s : Settings} {entries : List (String × Toml.Value)}

theorem get_override (s : Settings) (env : Environment) (x : Setting) :
    get (s.override env) x = (x.given env).getD (get s x) := by
  have htext : ∀ name default, env.text name default = ((env name).bind some).getD default :=
    fun name default => by rw [Environment.text, Option.bind_fun_some]
  cases x with
  | apiKey =>
    simp only [get, Settings.override, given, variableName]
    cases env "CODESYNC_EMBEDDING_API_KEY" <;> rfl
  | baseUrl | model | storeUrl | collection | watchUrl => exact htext _ _
  | dimensions | timeout | maxSize | overlap | baseInterval | maxAttempts => rfl

/-- What is read for a setting of a section is the value there, or else the default. -/
theorem setting_eq {α : Type} {sec : Section} {name : String} {place : Nat}
    {read : Toml.Value → Option α} {default a : α}
    (h : sec.setting name place read default = some a) :
    a = ((sec.get? name place).bind read).getD default := by
  rw [Section.setting] at h
  cases hget : sec.get? name place with
  | none =>
    rw [hget] at h
    exact (Option.some.inj h).symm
  | some v =>
    rw [hget] at h
    have hread : read v = some a := h
    rw [Option.bind_some, hread, Option.getD_some]

/-- The same for a setting of the document, when each section gives the values that are in it. -/
theorem written_getD {α : Type} {read : Section → Option α} {default a : α} (x : Setting)
    (h : readSection entries x.home.1 read default = some a) (value : α → x.Value)
    (hdefault : value default = x.default)
    (hread : ∀ sec a, read sec = some a → value a = (writtenIn sec x).getD x.default) :
    value a = (x.written entries).getD x.default := by
  rw [readSection] at h
  rw [written]
  cases hlookup : entries.lookup x.home.1 with
  | none =>
    rw [hlookup] at h
    cases h
    exact hdefault
  | some v =>
    rw [hlookup] at h
    obtain ⟨sec, hsec, hvalue⟩ := Option.bind_eq_some_iff.1 h
    rw [Option.bind_some, hsec, Option.bind_some]
    exact hread sec a hvalue

theorem readEmbedding_eq {sec : Section} {e : EmbeddingSettings} (h : readEmbedding sec = some e) :
    e.baseUrl = (writtenIn sec baseUrl).getD baseUrl.default ∧
    e.model = (writtenIn sec model).getD model.default ∧
    e.apiKey = (writtenIn sec apiKey).getD apiKey.default ∧
    e.dimensions = (writtenIn sec dimensions).getD dimensions.default ∧
    e.timeout = (writtenIn sec timeout).getD timeout.default := by
  obtain ⟨_, hbaseUrl, h⟩ := Option.bind_eq_some_iff.1 h
  obtain ⟨_, hmodel, h⟩ := Option.bind_eq_some_iff.1 h
  obtain ⟨_, hapiKey, h⟩ := Option.bind_eq_some_iff.1 h
  obtain ⟨_, hdimensions, h⟩ := Option.bind_eq_some_iff.1 h
  obtain ⟨_, htimeout, h⟩ := Option.bind_eq_some_iff.1 h
  cases h
  exact ⟨setting_eq hbaseUrl, setting_eq hmodel, setting_eq hapiKey, setting_eq hdimensions,
    setting_eq htimeout⟩

theorem readStore_eq {sec : Section} {e : StoreSettings} (h : readStore sec = some e) :
    e.url = (writtenIn sec storeUrl).getD storeUrl.default ∧
    e.collection = (writtenIn sec collection).getD collection.default := by
  obtain ⟨_, hurl, h⟩ := Option.bind_eq_some_iff.1 h
  obtain ⟨_, hcollection, h⟩ := Option.bind_eq_some_iff.1 h
  cases h
  exact ⟨setting_eq hurl, setting_eq hcollection⟩

theorem readChunks_eq {sec : Section} {e : Chunk.Options} (h : readChunks sec = some e) :
    e.maxSize = (writtenIn sec maxSize).getD maxSize.default ∧
    e.overlap = (writtenIn sec overlap).getD overlap.default := by
  obtain ⟨_, hmaxSize, h⟩ := Option.bind_eq_some_iff.1 h
  obtain ⟨_, hoverlap, h⟩ := Option.bind_eq_some_iff.1 h
  cases h
  exact ⟨setting_eq hmaxSize, setting_eq hoverlap⟩

theorem readWatch_eq {sec : Section} {e : WatchSettings} (h : readWatch sec = some e) :
    e.url = (writtenIn sec watchUrl).getD watchUrl.default ∧
    e.baseInterval = (writtenIn sec baseInterval).getD baseInterval.default ∧
    e.maxAttempts = (writtenIn sec maxAttempts).getD maxAttempts.default := by
  obtain ⟨_, hurl, h⟩ := Option.bind_eq_some_iff.1 h
  obtain ⟨_, hbaseInterval, h⟩ := Option.bind_eq_some_iff.1 h
  obtain ⟨_, hmaxAttempts, h⟩ := Option.bind_eq_some_iff.1 h
  cases h
  exact ⟨setting_eq hurl, setting_eq hbaseInterval, setting_eq hmaxAttempts⟩

theorem get_ofDocument? {text : String} (h : Settings.ofDocument? text = some s) :
    ∃ entries, Toml.read? text = some entries ∧
      ∀ x, get s x = (x.written entries).getD x.default := by
  obtain ⟨entries, hentries, h⟩ := Option.bind_eq_some_iff.1 h
  simp only [Option.ite_none_right_eq_some] at h
  obtain ⟨-, h⟩ := h
  obtain ⟨embedding, hembedding, h⟩ := Option.bind_eq_some_iff.1 h
  obtain ⟨store, hstore, h⟩ := Option.bind_eq_some_iff.1 h
  obtain ⟨chunks, hchunks, h⟩ := Option.bind_eq_some_iff.1 h
  obtain ⟨watch, hwatch, h⟩ := Option.bind_eq_some_iff.1 h
  cases h
  refine ⟨entries, hentries, fun x => ?_⟩
  cases x with
  | baseUrl =>
    exact written_getD baseUrl hembedding (·.baseUrl) rfl fun _ _ h => (readEmbedding_eq h).1
  | model =>
    exact written_getD model hembedding (·.model) rfl fun _ _ h => (readEmbedding_eq h).2.1
  | apiKey =>
    exact written_getD apiKey hembedding (·.apiKey) rfl fun _ _ h => (readEmbedding_eq h).2.2.1
  | dimensions =>
    exact written_getD dimensions hembedding (·.dimensions) rfl fun _ _ h =>
      (readEmbedding_eq h).2.2.2.1
  | timeout =>
    exact written_getD timeout hembedding (·.timeout) rfl fun _ _ h => (readEmbedding_eq h).2.2.2.2
  | storeUrl => exact written_getD storeUrl hstore (·.url) rfl fun _ _ h => (readStore_eq h).1
  | collection =>
    exact written_getD collection hstore (·.collection) rfl fun _ _ h => (readStore_eq h).2
  | maxSize => exact written_getD maxSize hchunks (·.maxSize) rfl fun _ _ h => (readChunks_eq h).1
  | overlap => exact written_getD overlap hchunks (·.overlap) rfl fun _ _ h => (readChunks_eq h).2
  | watchUrl => exact written_getD watchUrl hwatch (·.url) rfl fun _ _ h => (readWatch_eq h).1
  | baseInterval =>
    exact written_getD baseInterval hwatch (·.baseInterval) rfl fun _ _ h => (readWatch_eq h).2.1
  | maxAttempts =>
    exact written_getD maxAttempts hwatch (·.maxAttempts) rfl fun _ _ h => (readWatch_eq h).2.2

end Setting

/-! ### All layers -/

open Setting (layered)

/-- Values with which the program can run. -/
structure Usable (value : (x : Setting) → x.Value) : Prop where
  baseUrl : isBlank (value .baseUrl) = false
  model : isBlank (value .model) = false
  dimensions : 0 < value .dimensions
  timeout : 0 < value .timeout
  storeUrl : isBlank (value .storeUrl) = false
  collection : isBlank (value .collection) = false
  maxSize : 0 < value .maxSize
  overlap : value .overlap < value .maxSize
  watchUrl : isBlank (value .watchUrl) = false
  baseInterval : 0 < value .baseInterval

theorem fault?_eq_none_iff_usable {s : Settings} :
    s.fault? = none ↔ Usable fun x => x.get s := by
  rw [fault?_eq_none_iff]
  constructor
  · rintro ⟨⟨hbaseUrl, hmodel, hdimensions, htimeout⟩, ⟨hstoreUrl, hcollection⟩,
      ⟨hmaxSize, hoverlap⟩, hwatchUrl, hbaseInterval⟩
    exact ⟨hbaseUrl, hmodel, Nat.pos_of_ne_zero hdimensions, Nat.pos_of_ne_zero htimeout, hstoreUrl,
      hcollection, Nat.pos_of_ne_zero hmaxSize, hoverlap, hwatchUrl,
      Nat.pos_of_ne_zero hbaseInterval⟩
  · intro h
    exact ⟨⟨h.baseUrl, h.model, Nat.ne_of_gt h.dimensions, Nat.ne_of_gt h.timeout⟩,
      ⟨h.storeUrl, h.collection⟩, ⟨Nat.ne_of_gt h.maxSize, h.overlap⟩, h.watchUrl,
      Nat.ne_of_gt h.baseInterval⟩

/-- The entries of the document at a path, if it can be read as settings.  Where there is nothing,
these are the entries of an empty document. -/
def documentAt (files : Entry) (path : String) : Option (List (String × Toml.Value)) :=
  match files.textAt? path with
  | none => some []
  | some (.error _) => none
  | some (.ok text) => if (Settings.ofDocument? text).isSome then Toml.read? text else none

variable {files : Entry} {named : Option String} {env : Environment}
  {entries : List (String × Toml.Value)} {s : Settings}

theorem readFound_of_documentAt {path : String} (h : documentAt files path = some entries) :
    ∃ read, readFound path (files.textAt? path) = .ok read ∧
      ∀ x : Setting, x.get read = (x.written entries).getD x.default := by
  unfold documentAt at h
  cases hfound : files.textAt? path with
  | none =>
    rw [hfound] at h
    cases h
    exact ⟨{}, rfl, fun x => rfl⟩
  | some found =>
    rw [hfound] at h
    cases found with
    | error reason => cases h
    | ok text =>
      simp only [Option.ite_none_right_eq_some] at h
      obtain ⟨hsome, hentries⟩ := h
      obtain ⟨read, hread⟩ := Option.isSome_iff_exists.1 hsome
      obtain ⟨same, hsame, hvalues⟩ := Setting.get_ofDocument? hread
      obtain rfl := Option.some.inj (hsame.symm.trans hentries)
      exact ⟨read, by rw [readFound, hread], hvalues⟩

/-- Where the document at a path can be read, or nothing is there, each setting with the environment
above the document is the value of its variable, if that is one of its kind, or else the value in
the document, or else its default.  These settings are what is loaded, if they can be used together.
Each variable is that of one setting, and a change of it changes no other setting. -/
theorem load_layers (h : documentAt files (resolvePath named env) = some entries) :
    ∃ read, readFound (resolvePath named env) (files.textAt? (resolvePath named env)) = .ok read ∧
      (∀ x : Setting, x.get (read.override env) =
        (x.given env).getD ((x.written entries).getD x.default)) ∧
      (∀ s, load files named env = .ok s → s = read.override env) ∧
      ((∃ s, load files named env = .ok s) ↔ Usable (layered entries env)) ∧
      Function.Injective Setting.variableName ∧
      ∀ (env' : Environment) (changed : String), (∀ name, name ≠ changed → env' name = env name) →
        ∀ x : Setting, x.variableName ≠ changed →
          x.get (read.override env') = x.get (read.override env) := by
  obtain ⟨read, hread, hvalues⟩ := readFound_of_documentAt h
  have hlayers : ∀ (env : Environment) (x : Setting),
      x.get (read.override env) = layered entries env x := fun env x => by
    rw [Setting.get_override, hvalues, layered]
  have hload : ∀ s, load files named env = .ok s ↔
      read.override env = s ∧ (read.override env).fault? = none := by
    intro s
    rw [load, loadFound_eq_ok_iff]
    constructor
    · rintro ⟨same, hsame, rfl, hfault⟩
      obtain rfl := Except.ok.inj (hread.symm.trans hsame)
      exact ⟨rfl, hfault⟩
    · rintro ⟨rfl, hfault⟩
      exact ⟨read, hread, rfl, hfault⟩
  have husable : (read.override env).fault? = none ↔ Usable (layered entries env) := by
    rw [fault?_eq_none_iff_usable, funext (hlayers env)]
  refine ⟨read, hread, hlayers env, fun s hs => ((hload s).1 hs).1.symm, ?_,
    Setting.variableName_injective, fun env' changed hsame x hx => ?_⟩
  · rw [← husable]
    exact ⟨fun ⟨s, hs⟩ => ((hload s).1 hs).2, fun hfault => ⟨_, (hload _).2 ⟨rfl, hfault⟩⟩⟩
  · rw [hlayers, hlayers, layered, layered, Setting.given, Setting.given, hsame _ hx]

/-- A file that gives an overlap greater than its size. -/
def wideOverlap : Entry :=
  .directory [("config", .directory [("default.toml",
    .file "[chunker]\nmax_size = 100\noverlap = 150\n".toUTF8 0)])]

/-- A greater size, and no number for the overlap. -/
def enlarged : Environment := fun name =>
  if name = "CODESYNC_CHUNK_MAX_SIZE" then some "200"
  else if name = "CODESYNC_CHUNK_OVERLAP" then some "wide"
  else none

/-- The size is that of the variable and the overlap that of the file, and they can be used
together; the file alone is refused. -/
theorem load_layers_enlarged :
    load wideOverlap none enlarged = .ok { chunks := ⟨200, 150⟩ } ∧
    load wideOverlap none (fun _ => none) = .error (.invalid (.overlapTooLarge 150 100)) ∧
    ∃ entries, documentAt wideOverlap (resolvePath none enlarged) = some entries ∧
      Usable (layered entries enlarged) ∧ (Setting.written entries .overlap).getD 200 = 150 := by
  have hload : load wideOverlap none enlarged = .ok { chunks := ⟨200, 150⟩ } := by decide +kernel
  have hread : (documentAt wideOverlap (resolvePath none enlarged)).isSome = true := by
    decide +kernel
  obtain ⟨entries, hentries⟩ := Option.isSome_iff_exists.1 hread
  obtain ⟨read, -, hvalues, hloaded, husable, -⟩ := load_layers hentries
  have hoverlap := hvalues .overlap
  rw [← hloaded _ hload] at hoverlap
  exact ⟨hload, by decide +kernel, entries, hentries, husable.1 ⟨_, hload⟩, hoverlap.symm⟩

end CodeIndex.Config
