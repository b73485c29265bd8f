import WfObserver.Service.Batch

/-!
# The catalog and the runtime record

`catalog` turns the compiled manifests into the wire catalog (`service/catalog.rs`). `HostStatus` is
what the lifecycle worker publishes (`runtime/record.rs`).
-/

namespace WfObserver
namespace Service

open Wire
open ProviderSdk (ProviderManifest)

/-- `catalog::limit`. -/
def limit (resource : Resource) : RequestError := .limitExceeded resource

/-- `catalog::invalid`. -/
def invalid (message : String) : RequestError := .invalidRequest message

/-- `catalog::message_fits` of a value with this encoded size. -/
def messageFits (size : Option Nat) (messageBytes : Nat) : Except RequestError Unit :=
  match size with
  | none => .error (invalid "response encoding failed")
  | some size => if size > messageBytes then .error (limit .messageBytes) else .ok ()

/-- The inner loop of `catalog::catalog`: the capabilities of one manifest. -/
def catalogCapabilities :
    List ProviderSdk.CapabilityDescriptor → List CapabilityDescriptor →
      Except String (List CapabilityDescriptor)
  | [], done => .ok done
  | cap :: caps, done =>
    if !(identifier cap.topic && decide (cap.schemaVersion > 0) &&
        (cap.snapshots.isSome || cap.events)) then .error "invalid capability"
    else if done.any fun c => c.topic == cap.topic && c.schemaVersion == cap.schemaVersion then
      .error "duplicate capability"
    else catalogCapabilities caps
      (done ++ [⟨cap.topic, cap.schemaVersion, cap.snapshots.isSome, cap.events⟩])

/-- The outer loop of `catalog::catalog`. -/
def catalogProviders :
    List ProviderManifest → List ProviderDescriptor → Except String (List ProviderDescriptor)
  | [], done => .ok done
  | manifest :: manifests, done =>
    if !(identifier manifest.id && identifier manifest.game.id) then
      .error "invalid provider identity"
    else if done.any fun p => p.id == manifest.id then .error "duplicate provider ID"
    else match catalogCapabilities manifest.capabilities [] with
      | .error e => .error e
      | .ok capabilities => catalogProviders manifests
          (done ++ [⟨manifest.id, manifest.name, manifest.version,
            ⟨manifest.game.id, manifest.game.name⟩, capabilities⟩])

/-- `catalog::catalog`. -/
def catalog (manifests : List ProviderManifest) : Except String Catalog :=
  (catalogProviders manifests []).map Catalog.mk

/-! ## The runtime record -/

structure RecordedProcess where
  pid : Nat
  startMarker : Nat
  deriving DecidableEq, Repr

structure TargetInfo where
  process : RecordedProcess
  executable : String
  providerId : String
  gameId : String
  deriving DecidableEq, Repr

inductive Activity where
  | attaching
  | observing (sessionId : String)
  | retrying (error : String)
  deriving DecidableEq, Repr

structure TargetStatus where
  target : TargetInfo
  activity : Activity
  deriving DecidableEq, Repr

structure HostStatus where
  discoveryError : Option String := none
  targets : List TargetStatus := []
  deriving DecidableEq, Repr

/-! ## What the catalog keeps of the manifests -/

/-- The wire form of a declared capability. -/
def publicCapability (cap : ProviderSdk.CapabilityDescriptor) : CapabilityDescriptor :=
  ⟨cap.topic, cap.schemaVersion, cap.snapshots.isSome, cap.events⟩

theorem catalogCapabilities_eq {caps : List ProviderSdk.CapabilityDescriptor}
    {done out : List CapabilityDescriptor} (h : catalogCapabilities caps done = .ok out) :
    out = done ++ caps.map publicCapability ∧
      (done.Pairwise (fun a b => (a.topic, a.schemaVersion) ≠ (b.topic, b.schemaVersion)) →
        out.Pairwise fun a b => (a.topic, a.schemaVersion) ≠ (b.topic, b.schemaVersion)) ∧
      ∀ cap ∈ caps, identifier cap.topic = true ∧ 0 < cap.schemaVersion := by
  induction caps generalizing done with
  | nil => simp [catalogCapabilities] at h; simp [h]
  | cons cap caps ih =>
    rw [catalogCapabilities] at h
    split at h
    · cases h
    · rename_i hi
      split at h
      · cases h
      · rename_i hd
        obtain ⟨rfl, hp, hc⟩ := ih h
        refine ⟨by simp [publicCapability], fun hq => hp ?_, ?_⟩
        · rw [List.pairwise_append]
          refine ⟨hq, List.pairwise_singleton _ _, fun a ha b hb => ?_⟩
          rw [List.mem_singleton.mp hb]
          simp only [List.any_eq_true, not_exists] at hd
          have := hd a
          simp only [ha, true_and, Bool.and_eq_true, beq_iff_eq] at this
          simpa using this
        · intro c hm
          rcases List.mem_cons.mp hm with rfl | hm
          · simp only [Bool.not_eq_true', Bool.not_eq_false, Bool.and_eq_true,
              decide_eq_true_eq] at hi
            exact ⟨hi.1.1, hi.1.2⟩
          · exact hc c hm

/-- The descriptor of one manifest. -/
def publicProvider (m : ProviderManifest) : ProviderDescriptor :=
  ⟨m.id, m.name, m.version, ⟨m.game.id, m.game.name⟩, m.capabilities.map publicCapability⟩

/-- A manifest that `catalog` accepts: distinct capabilities with well-formed topics. -/
structure ValidManifest (m : ProviderManifest) : Prop where
  id : identifier m.id = true
  caps : ∀ cap ∈ m.capabilities, identifier cap.topic = true ∧ 0 < cap.schemaVersion
  distinct : m.capabilities.Pairwise fun a b => (a.topic, a.schemaVersion) ≠ (b.topic, b.schemaVersion)

theorem catalogProviders_eq {ms : List ProviderManifest} {done out : List ProviderDescriptor}
    (h : catalogProviders ms done = .ok out) :
    out = done ++ ms.map publicProvider ∧
      ((done.map (·.id)).Nodup → (out.map (·.id)).Nodup) ∧ ∀ m ∈ ms, ValidManifest m := by
  induction ms generalizing done with
  | nil => simp [catalogProviders] at h; simp [h]
  | cons m ms ih =>
    rw [catalogProviders] at h
    split at h
    · cases h
    · rename_i hi
      split at h
      · cases h
      · rename_i hd
        split at h
        · cases h
        · rename_i caps hcaps
          obtain ⟨rfl, hp, hm⟩ := ih h
          obtain ⟨rfl, hpair, hok⟩ := catalogCapabilities_eq hcaps
          have hdist := hpair .nil
          rw [List.nil_append, List.pairwise_map] at hdist
          refine ⟨by simp [publicProvider], fun hn => hp ?_, ?_⟩
          · rw [List.map_append, List.map_singleton]
            refine List.Nodup.append hn (List.nodup_singleton _) (List.disjoint_singleton.mpr ?_)
            simpa using hd
          · intro m' hm'
            rcases List.mem_cons.mp hm' with rfl | hm'
            · simp only [Bool.not_eq_true', Bool.not_eq_false, Bool.and_eq_true] at hi
              exact ⟨hi.1, hok, hdist⟩
            · exact hm m' hm'

/-- What `catalog` accepts: the providers are the manifests, with distinct ids. -/
structure Registered (manifests : List ProviderManifest) (c : Catalog) : Prop where
  providers : c.providers = manifests.map publicProvider
  nodup : (c.providers.map (·.id)).Nodup
  valid : ∀ m ∈ manifests, ValidManifest m

theorem catalog_registered {manifests : List ProviderManifest} {c : Catalog}
    (h : catalog manifests = .ok c) : Registered manifests c := by
  unfold catalog at h
  cases hp : catalogProviders manifests [] with
  | error e => rw [hp] at h; cases h
  | ok ps =>
    rw [hp] at h
    cases h
    obtain ⟨rfl, hn, hv⟩ := catalogProviders_eq hp
    exact ⟨rfl, hn (by simp), hv⟩

end Service
end WfObserver
