import AiK8sGateway.Gateway.ScorerPolicy

/-!
# Where a Trusted Image Comes From

A container runtime reads an image reference by its grammar, the scorer and the policy by
its beginning.  The two readings differ where a colon after an official name starts a port
and not a tag.

## Main results

- `trusted_source_iff`: when an accepted image resolves to a trusted source.
-/

namespace AiK8sGateway

open Foundations PythonText

/-! ## Image references -/

/-- Where a reference resolves to. -/
inductive ImageSource where
  /-- A registry of its own. -/
  | registry (host : String)
  /-- An official repository of Docker Hub. -/
  | official (name : String)
  /-- Any other repository of Docker Hub. -/
  | community
  deriving DecidableEq

/-- The part before the first `/`. -/
def firstPart (image : String) : List Char := image.toList.takeWhile (· ≠ '/')

/-- A first part that is a registry host. -/
def isHost (part : List Char) : Bool :=
  part.contains '.' || part.contains ':' || part == "localhost".toList

/-- The resolution of an image reference. -/
def resolve (image : String) : ImageSource :=
  if '/' ∈ image.toList then
    if isHost (firstPart image) then .registry (String.ofList (firstPart image)) else .community
  else
    -- The name goes up to the tag or the digest.
    .official (String.ofList (image.toList.takeWhile fun c => c ≠ ':' && c ≠ '@'))

/-- A source that the prefixes stand for. -/
def TrustedSource : ImageSource → Prop
  | .registry host => host ∈ ["gcr.io", "quay.io", "registry.k8s.io"]
  | .official name => name ∈ ["nginx", "python", "alpine", "busybox"]
  | .community => False

/-- The reference names a registry by host and port. -/
def HasPort (image : String) : Prop := '/' ∈ image.toList ∧ ':' ∈ firstPart image

/-! ## The two kinds of prefixes -/

/-- A name with its colon: without a `/` after it the rest is a tag, with one it is a port. -/
theorem trustedSource_of_tagged {image name : String}
    (hname : ∀ c ∈ name.toList, c ≠ '/' ∧ c ≠ ':' ∧ c ≠ '@')
    (hofficial : name ∈ ["nginx", "python", "alpine", "busybox"])
    (hstarts : startsWith image (name ++ ":") = true) :
    TrustedSource (resolve image) ↔ ¬ HasPort image := by
  obtain ⟨rest, hrest⟩ := startsWith_iff.mp hstarts
  have hchars : image.toList = name.toList ++ ':' :: rest := by
    rw [hrest]
    simp
  by_cases hslash : '/' ∈ image.toList
  · have hfirst : firstPart image = name.toList ++ (':' :: rest).takeWhile (· ≠ '/') := by
      rw [firstPart, hchars, List.takeWhile_append_of_pos]
      intro c hc
      simpa using (hname c hc).1
    have hcolon : ':' ∈ firstPart image := by
      rw [hfirst]
      simp
    -- The host has a colon in it, and no trusted one has.
    have hhost : resolve image = .registry (String.ofList (firstPart image)) := by
      rw [resolve, if_pos hslash, if_pos (by simp [isHost, hcolon])]
    have hplain : ∀ host ∈ ["gcr.io", "quay.io", "registry.k8s.io"], ':' ∉ host.toList := by decide
    rw [hhost]
    refine iff_of_false (fun htrusted => ?_) (fun hport => hport ⟨hslash, hcolon⟩)
    apply hplain _ htrusted
    rwa [String.toList_ofList]
  · -- Without a slash the name is all there is, and an official image.
    have hsource : resolve image = .official name := by
      rw [resolve, if_neg hslash, hchars, List.takeWhile_append_of_pos]
      · simp
      · intro c hc
        simp [(hname c hc).2.1, (hname c hc).2.2]
    rw [hsource]
    exact iff_of_true hofficial fun hport => hslash hport.1

/-- A host with its slash is read in the same way by everyone. -/
theorem trustedSource_of_host {image host : String} (hslash : '/' ∉ host.toList)
    (hhost : isHost host.toList = true) (hcolon : ':' ∉ host.toList)
    (htrusted : host ∈ ["gcr.io", "quay.io", "registry.k8s.io"])
    (hstarts : startsWith image (host ++ "/") = true) :
    TrustedSource (resolve image) ∧ ¬ HasPort image := by
  obtain ⟨rest, hrest⟩ := startsWith_iff.mp hstarts
  have hchars : image.toList = host.toList ++ '/' :: rest := by
    rw [hrest]
    simp
  have hfirst : firstPart image = host.toList := by
    rw [firstPart, hchars, List.takeWhile_append_of_pos]
    · simp
    · intro c hc
      simpa using fun hc' : c = '/' => hslash (hc' ▸ hc)
  -- The first slash is the one of the prefix, whatever comes after it.
  have hmem : '/' ∈ image.toList := by simp [hchars]
  constructor
  · -- The part in front of the slash is the host.
    rw [resolve, if_pos hmem, hfirst, if_pos hhost, String.ofList_toList]
    exact htrusted
  · -- It has no colon, so there is no port.
    rintro ⟨-, hport⟩
    rw [hfirst] at hport
    exact hcolon hport

/-- **Trusted images**: an image that the scorer or the policy accepts resolves to a
    trusted source, unless it names a registry by host and port. -/
theorem trusted_source_iff {image : String}
    (haccepted : Risk.isTrustedImage .default image = true ∨
      Policies.AgentActions.isTrustedImage (.str image) = true) :
    TrustedSource (resolve image) ↔ ¬ HasPort image := by
  rw [isTrustedImage_default_iff, isTrustedImage_rego_iff, or_self] at haccepted
  obtain ⟨pre, hpre, hstarts⟩ := haccepted
  -- A prefix is an official name with a colon, or a host with a slash.
  have hkinds : ∀ pre ∈ Policies.AgentActions.trustedImagePrefixes,
      (∃ name ∈ ["nginx", "python", "alpine", "busybox"], pre = name ++ ":") ∨
        ∃ host ∈ ["gcr.io", "quay.io", "registry.k8s.io"], pre = host ++ "/" := by decide
  rcases hkinds pre hpre with ⟨name, hname, rfl⟩ | ⟨host, hhost, rfl⟩
  · have hall : ["nginx", "python", "alpine", "busybox"].all (fun name =>
        name.toList.all fun c => c ≠ '/' ∧ c ≠ ':' ∧ c ≠ '@') = true := by decide
    have hplain : ∀ c ∈ name.toList, c ≠ '/' ∧ c ≠ ':' ∧ c ≠ '@' := by
      simpa using List.all_eq_true.mp hall name hname
    exact trustedSource_of_tagged hplain hname hstarts
  · have hplain : ∀ host ∈ ["gcr.io", "quay.io", "registry.k8s.io"],
        '/' ∉ host.toList ∧ isHost host.toList = true ∧ ':' ∉ host.toList := by decide
    obtain ⟨hslash, hdot, hcolon⟩ := hplain host hhost
    obtain ⟨htrusted, hport⟩ := trustedSource_of_host hslash hdot hcolon hhost hstarts
    exact iff_of_true htrusted hport

/-- Both sides accept an image of a registry at a port of the host `nginx`. -/
theorem trusted_source_not :
    ¬ ∀ image : String, (Risk.isTrustedImage .default image = true ∨
      Policies.AgentActions.isTrustedImage (.str image) = true) →
        TrustedSource (resolve image) := by
  intro h
  have hsource : resolve "nginx:5000/miner" = .registry "nginx:5000" := by decide
  have htrusted := h "nginx:5000/miner" (.inl (by decide))
  simp [hsource, TrustedSource] at htrusted

/-- An image with a tag resolves to its official repository. -/
theorem trusted_source_tagged : TrustedSource (resolve "nginx:alpine") := by
  apply (trusted_source_iff (.inr (by decide))).mpr
  rintro ⟨hslash, -⟩
  exact absurd hslash (by decide)

end AiK8sGateway
