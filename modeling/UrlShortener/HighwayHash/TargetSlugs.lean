import UrlShortener.HighwayHash.Avx2
import UrlShortener.HighwayHash.SlugHash

/-!
# Slugs on every target

`generate_slug` hashes with the state of `HH_TARGET_PREFERRED`, which the compiler's flags
choose. `generateSlugOn` is `generate_slug` with that state as a parameter: on every target
whose state simulates the portable one it gives the same slugs (`generateSlugOn_eq`), so a
store filled by one build is continued by another.
-/

namespace UrlShortener.HighwayHash
set_option autoImplicit false

/-- `generate_slug` on a URL in memory, built for the target of `State`. -/
def generateSlugOn (State : Type) [HHStateT State] (alphabet : Bytes) (slugLength : UInt8) (highwayhashKey : HHKey)
    (dst : Bytes) (longUrl : CharPtr) (size : Nat) (nthTry : UInt8) :
    Except Fault (Except Undefined (Bool × Bytes)) := do
  let state : State := HHStateT.reset highwayhashKey
  let result ← highwayHashT HHStateT.finalize256 state longUrl size
  return (slugTries alphabet.length slugLength.toNat nthTry.toNat ⟨result, 0, dst⟩).map fun r => (r.1, r.2.dst)

theorem generateSlugOn_portable : generateSlugOn HHState = generateSlugAt := rfl

theorem generateSlugOn_eq {State : Type} [HHStateT State] {portable : State → HHState} (sim : Simulates portable)
    (alphabet : Bytes) (slugLength : UInt8) (highwayhashKey : HHKey) (dst : Bytes) {memory : CharPtr} {longUrl : Bytes}
    (holds : memory.Holds longUrl) (nthTry : UInt8) :
    generateSlugOn State alphabet slugLength highwayhashKey dst memory longUrl.length nthTry =
      generateSlugAt alphabet slugLength highwayhashKey dst memory longUrl.length nthTry := by
  simp only [generateSlugOn, generateSlugAt, highwayHashT_ok finalize256 _ holds,
    sim.hash_ok sim.finalize256 highwayhashKey holds, bind, Except.bind]

/-- **A store is good for every target**: for every configuration, URL and try, the builds
for SSE4.1 and AVX2 generate the slug that the portable one does. -/
theorem slugs_on_every_target (alphabet : Bytes) (slugLength : UInt8) (highwayhashKey : HHKey) (dst : Bytes)
    {memory : CharPtr} {longUrl : Bytes} (holds : memory.Holds longUrl) (nthTry : UInt8) :
    ∃ slug, generateSlugOn HHState alphabet slugLength highwayhashKey dst memory longUrl.length nthTry = .ok slug ∧
      generateSlugOn HHStateSSE41 alphabet slugLength highwayhashKey dst memory longUrl.length nthTry = .ok slug ∧
      generateSlugOn HHStateAVX2 alphabet slugLength highwayhashKey dst memory longUrl.length nthTry = .ok slug := by
  obtain ⟨slug, done⟩ : ∃ slug,
      generateSlugAt alphabet slugLength highwayhashKey dst memory longUrl.length nthTry = .ok slug := by
    simp only [generateSlugAt, highwayHashT_ok finalize256 _ holds, bind, Except.bind]
    exact ⟨_, rfl⟩
  refine ⟨slug, ?_, ?_, ?_⟩
  · rw [generateSlugOn_portable, done]
  · rw [generateSlugOn_eq sse41_simulates _ _ _ _ holds, done]
  · rw [generateSlugOn_eq avx2_simulates _ _ _ _ holds, done]

/-- A URL that is a whole object. -/
theorem slugs_on_every_target_seven :
    let longUrl := bytes "https://example.com/a"
    ∃ slug, generateSlugOn HHState alphabet 7 #v[1, 2, 3, 4] [] (.toBytes longUrl) 21 1 = .ok slug ∧
      generateSlugOn HHStateSSE41 alphabet 7 #v[1, 2, 3, 4] [] (.toBytes longUrl) 21 1 = .ok slug ∧
      generateSlugOn HHStateAVX2 alphabet 7 #v[1, 2, 3, 4] [] (.toBytes longUrl) 21 1 = .ok slug := by
  intro longUrl
  have length : longUrl.length = 21 := by decide
  have slugs := slugs_on_every_target alphabet 7 #v[1, 2, 3, 4] [] (CharPtr.toBytes_holds longUrl) 1
  rwa [length] at slugs

end UrlShortener.HighwayHash
