import Exasphere.Py.Sha256
import Exasphere.Qa.Common

/-!
# BPF artifacts (`qa/bpf_artifacts.py`)

The canonical object and its metadata are built when one of them is missing, so a check may change the files: it returns
those that are there after it. What the host does besides holding regular files is the `Host`.
-/

namespace Exasphere.Qa.Bpf

open Exasphere.Lib Exasphere.Py

/-- The symbolic links of the host, its canonical paths, and the files after `bash tools/build_bpf.sh`. -/
structure Host where
  isSymlink : Path → Bool
  resolve : Path → Path
  buildBpf : Files → Except Exn Files

def canonicalObject : Path := .parse (str "zig-out/bpf/zigsched_minimal.bpf.o")

def canonicalMetadata : Path := .parse (str "zig-out/bpf/zigsched_minimal.bpf.meta.json")

structure BpfArtifacts where
  objectPath : Path
  metadataPath : Path
  objectSha256 : Str

variable (b : Builtins) (host : Host)

def sha256File (fs : Files) (path : Path) : Except Exn Str := do
  let data ← fs.readBytes path
  .ok (sha256 data)

def loadMetadata (fs : Files) (path : Path) : Except Exn Dict :=
  match fs.readText path >>= loads with
  | .ok (.dict d) => .ok d
  | .ok _ => fail (str "BPF metadata must contain a JSON object")
  | .error .jsonDecodeError => fail (str "invalid BPF metadata JSON: " ++ path.asPosix)
  | .error e => .error e

def requireText (data : Dict) (field : String) (context : String) : Except Exn Str :=
  match data.get field with
  | .str s => if s = [] then fail (str context ++ str " missing text field: " ++ str field) else .ok s
  | _ => fail (str context ++ str " missing text field: " ++ str field)

/-- The object that the metadata names, if it names one. -/
def namesObject (metadata : Dict) (objectPath : Path) : Bool :=
  match metadata.get "object" with
  | .str s => decide (Path.parse s = objectPath)
  | _ => true

def requireToolVersions (metadata : Dict) : Except Exn Dict :=
  match metadata.get "tool_versions" with
  | .dict d => .ok d
  | _ => fail (str "BPF metadata missing tool_versions object")

/-- `validate_bpf_artifacts(object_path, metadata_path)`. -/
def validateBpfArtifacts (fs : Files) (objectPath metadataPath : Path) : Except Exn BpfArtifacts := do
  require (fs.isFile objectPath) (str "missing BPF object: " ++ objectPath.asPosix)
  require (fs.isFile metadataPath) (str "missing BPF metadata: " ++ metadataPath.asPosix)
  let objectSha ← sha256File fs objectPath
  let metadata ← loadMetadata fs metadataPath
  let _ ← requireText metadata "schema" "metadata"
  require ((metadata.get "schema").eqStr b (str "zig-scheduler/bpf-object-metadata/v1"))
    (str "BPF metadata schema mismatch")
  require ((metadata.get "object_sha256").eqStr b objectSha)
    (str "BPF metadata object_sha256 disagrees with object")
  require ((metadata.get "object_hash").eqStr b (str "sha256:" ++ objectSha))
    (str "BPF metadata object_hash disagrees with object")
  require (namesObject metadata objectPath) (str "BPF metadata object path disagrees with object")
  require (isFalse (metadata.get "host_mutation") && isFalse (metadata.get "host_attach_allowed"))
    (str "BPF metadata does not preserve host fail-closed policy")
  require (isTrue (metadata.get "vm_only")) (str "BPF metadata must be VM-only")
  require (isFalse (metadata.get "verification_claimed")) (str "BPF metadata must not claim verifier success")
  let toolVersions ← requireToolVersions metadata
  let clangPath ← requireText toolVersions "clang_path" "tool_versions"
  require ((Path.parse clangPath).isAbsolute && decide (host.resolve (.parse clangPath) = .parse clangPath))
    (str "BPF metadata tool_versions.clang_path must be canonical")
  .ok ⟨objectPath, metadataPath, objectSha⟩

def canonicalMissing (fs : Files) : Bool := !fs.isFile canonicalObject || !fs.isFile canonicalMetadata

/-- `ensure_canonical_bpf_artifacts()`, where one of the artifacts is missing. -/
def buildCanonicalBpfArtifacts (fs : Files) : Except Exn Files := do
  let fs ← host.buildBpf fs
  let _ ← validateBpfArtifacts b host fs canonicalObject canonicalMetadata
  .ok fs

/-- `ensure_if_canonical(path)`. -/
def ensureIfCanonical (fs : Files) (path : Path) : Except Exn Files :=
  if (path = canonicalObject ∨ path = canonicalMetadata) ∧ canonicalMissing fs then buildCanonicalBpfArtifacts b host fs
  else .ok fs

end Exasphere.Qa.Bpf
