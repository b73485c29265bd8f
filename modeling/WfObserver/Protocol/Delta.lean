import WfObserver.Wire

/-!
# Snapshot delivery (`protocol::v1`, `delta.rs`)

A snapshot goes over the wire whole or as a JSON patch against a baseline that the receiver has.
`between` makes the patch and `reconstruct` applies it. `JsonPatch` and `Blake3` are the parts of the
two crates that this uses; `JsonLaws` is what is relied on: `diff` and `patch` are inverse, `diff`
yields only operations that the receiver applies, and `serde_json` reads back its own text.
-/

namespace WfObserver

/-- `json_patch::PatchOperation`. -/
inductive PatchOperation (Value : Type) where
  | add (path : String) (value : Value)
  | remove (path : String)
  | replace (path : String) (value : Value)
  | move (source path : String)
  | copy (source path : String)
  | test (path : String) (value : Value)

/-- The operations that `reconstruct` applies. -/
def PatchOperation.supported {Value : Type} : PatchOperation Value → Bool
  | .add _ _ | .remove _ | .replace _ _ => true
  | _ => false

/-- `json_patch::diff` and `json_patch::patch`, with the text of a patch. -/
class JsonPatch [SerdeJson] where
  diff : SerdeJson.Value → SerdeJson.Value → List (PatchOperation SerdeJson.Value)
  patch : SerdeJson.Value → List (PatchOperation SerdeJson.Value) → Option SerdeJson.Value
  fromStr : String → Option (List (PatchOperation SerdeJson.Value))
  toString : List (PatchOperation SerdeJson.Value) → Option String

/-- `blake3::hash`. -/
class Blake3 where
  hash : String → Wire.Hash

/-- What lossless delivery relies on. -/
structure JsonLaws [SerdeJson] [JsonPatch] [Blake3] : Prop where
  /-- `serde_json` parses its own text, and writes it again as it was. -/
  reparse : ∀ value text, SerdeJson.toString value = some text →
    ∃ value', SerdeJson.fromStr text = some value' ∧ SerdeJson.toString value' = some text
  /-- `serde_json` parses the patches that it has written. -/
  repatch : ∀ patch text, JsonPatch.toString patch = some text → JsonPatch.fromStr text = some patch
  patch_diff : ∀ before after, JsonPatch.patch before (JsonPatch.diff before after) = some after
  supported : ∀ before after, ∀ op ∈ JsonPatch.diff before after, op.supported = true
  /-- The hash has no collision. -/
  injective : Function.Injective (Blake3.hash)

namespace Wire

variable [Blake3]

/-- `JsonPayload::hash`. -/
def JsonPayload.hash (p : JsonPayload) : Hash := Blake3.hash p.text

variable [SerdeJson] [JsonPatch]

/-- The patch from `base` to a payload, without the cache. -/
def JsonPayload.diff (base target : JsonPayload) : Option JsonPayload := do
  let before ← SerdeJson.fromStr base.text
  let after ← SerdeJson.fromStr target.text
  (JsonPatch.toString (JsonPatch.diff before after)).map JsonPayload.mk

/-- `JsonPayload::patch_from`. `cache` is the patch that the payload's cell holds, with the hash of
its base. -/
def JsonPayload.patchFrom (target base : JsonPayload) (cache : Option (Hash × JsonPayload)) :
    Option JsonPayload :=
  match cache with
  | some (hash, patch) => if hash = base.hash then some patch else base.diff target
  | none => base.diff target

/-- The cell after `patch_from`: it keeps its first patch, if that is shorter than the payload. -/
def JsonPayload.patched (target base : JsonPayload) (cell : Option (Hash × JsonPayload)) :
    Option (Hash × JsonPayload) :=
  match cell with
  | some kept => some kept
  | none => match base.diff target with
    | some patch =>
      if patch.text.utf8ByteSize < target.text.utf8ByteSize then some (base.hash, patch) else none
    | none => none

/-- The cell after the patches from some bases were asked for, of this client or of others. -/
def JsonPayload.cell (target : JsonPayload) (bases : List JsonPayload) : Option (Hash × JsonPayload) :=
  bases.foldl (fun cell base => target.patched base cell) none

/-- A cell holds a patch from the base of its hash. -/
def JsonPayload.Caches (target : JsonPayload) (cache : Option (Hash × JsonPayload)) : Prop :=
  ∀ hash patch, cache = some (hash, patch) →
    ∃ base : JsonPayload, hash = base.hash ∧ base.diff target = some patch

/-- `SnapshotPayload::between`. -/
def SnapshotPayload.between (base target : DataEnvelope) (cache : Option (Hash × JsonPayload)) :
    Option SnapshotPayload :=
  (target.payload.patchFrom base.payload cache).map fun patch =>
    .delta base.metadata.sequence target.payload.hash patch

/-- The part of `reconstruct` before it builds the item. -/
def SnapshotPayload.restore (payload : SnapshotPayload) (metadata : EnvelopeMetadata)
    (base : Option DataEnvelope) : Except String JsonPayload :=
  match payload with
  | .full payload => .ok payload
  | .delta baseSequence hash patch =>
    match base.filter fun base =>
        base.metadata.source == metadata.source && base.metadata.generation == metadata.generation
          && base.metadata.sequence == baseSequence
          && decide (baseSequence < metadata.sequence) with
    | none => .error "snapshot delta baseline mismatch"
    | some base =>
      match SerdeJson.fromStr base.payload.text with
      | none => .error "invalid snapshot baseline"
      | some value =>
        match JsonPatch.fromStr patch.text with
        | none => .error "invalid snapshot patch"
        | some ops =>
          -- A Copy could make a small patch into a huge value.
          if ops.any fun op => !op.supported then .error "unsupported snapshot patch operation"
          else match JsonPatch.patch value ops with
            | none => .error "snapshot patch failed"
            | some value =>
              match JsonPayload.fromValue value with
              | none => .error "invalid patched snapshot"
              | some payload =>
                if payload.hash ≠ hash then .error "snapshot delta hash mismatch" else .ok payload

/-- The item that a snapshot frame stands for. -/
def SnapshotFrame.item (cursor : Option ServiceCursor) (metadata : EnvelopeMetadata)
    (payload : JsonPayload) : SubscriptionItem :=
  let topic : TopicSnapshot :=
    ⟨metadata.source, metadata.generation, .available, some ⟨metadata, payload⟩⟩
  match cursor with
  | none => .topic topic
  | some cursor => .update ⟨cursor, .topicChanged topic⟩

/-- `SnapshotFrame::reconstruct`. -/
def SnapshotFrame.reconstruct (frame : SnapshotFrame) (base : Option DataEnvelope) :
    Except String SubscriptionItem :=
  (frame.payload.restore frame.metadata base).map (item frame.cursor frame.metadata)

/-! ## A patch leads to its target -/

/-- The cache does not change the patch. -/
theorem JsonPayload.patchFrom_eq (laws : JsonLaws) {base target : JsonPayload}
    {cache : Option (Hash × JsonPayload)} (h : target.Caches cache) :
    target.patchFrom base cache = base.diff target := by
  unfold patchFrom
  split
  · rename_i hash patch
    split
    · rename_i hbase
      obtain ⟨base', hhash, hpatch⟩ := h hash patch rfl
      have htext : base'.text = base.text := laws.injective (hhash.symm.trans hbase)
      have hsame : base' = base := by
        cases base
        cases base'
        exact congrArg _ htext
      rw [← hsame, hpatch]
    · rfl
  · rfl

theorem JsonPayload.caches_none (target : JsonPayload) : target.Caches none := fun _ _ h => by cases h

/-- The cell of a payload holds one of its patches. -/
theorem JsonPayload.caches_cell (target : JsonPayload) (bases : List JsonPayload) :
    target.Caches (target.cell bases) := by
  have hstep : ∀ cell base, target.Caches cell → target.Caches (target.patched base cell) := by
    intro cell base h
    unfold patched
    split
    · exact h
    split
    · rename_i patch hpatch
      split
      · rintro hash patch' ⟨⟩
        exact ⟨base, rfl, hpatch⟩
      · exact caches_none target
    · exact caches_none target
  unfold cell
  induction bases using List.reverseRecOn with
  | nil => exact caches_none target
  | append_singleton bases base ih =>
    rw [List.foldl_append]
    exact hstep _ base ih

/-- `reconstruct` undoes `between` when the receiver has the baseline. -/
theorem SnapshotPayload.restore_between (laws : JsonLaws) {base target : DataEnvelope}
    {cache : Option (Hash × JsonPayload)} (hcache : target.payload.Caches cache)
    (hsource : base.metadata.source = target.metadata.source)
    (hgeneration : base.metadata.generation = target.metadata.generation)
    (hsequence : base.metadata.sequence < target.metadata.sequence)
    (hencoded : target.payload.Encoded) {payload : SnapshotPayload}
    (h : between base target cache = some payload) :
    payload.restore target.metadata (some base) = .ok target.payload := by
  obtain ⟨patch, hpatch, rfl⟩ := Option.map_eq_some_iff.mp h
  rw [JsonPayload.patchFrom_eq laws hcache] at hpatch
  simp only [JsonPayload.diff, Option.bind_eq_bind, Option.bind_eq_some_iff,
    Option.map_eq_some_iff] at hpatch
  obtain ⟨before, hbefore, after, hafter, text, htext, rfl⟩ := hpatch
  obtain ⟨value, hvalue⟩ := hencoded
  obtain ⟨text', hvalue, htarget⟩ := Option.map_eq_some_iff.mp hvalue
  -- The target's text is what `serde_json` writes for the value that it reads from it.
  have hagain : JsonPayload.fromValue after = some target.payload := by
    obtain ⟨value', hread, hwrite⟩ := laws.reparse value text' hvalue
    rw [← htarget, hread] at hafter
    cases hafter
    rw [JsonPayload.fromValue, hwrite, Option.map_some, htarget]
  have hsupported : (JsonPatch.diff before after).any (fun op => !op.supported) = false := by
    rw [List.any_eq_false]
    intro op hop
    simp [laws.supported before after op hop]
  simp [restore, hsource, hgeneration, hsequence, hbefore, laws.repatch _ _ htext, hsupported,
    laws.patch_diff, hagain, Option.filter]

end Wire

end WfObserver
