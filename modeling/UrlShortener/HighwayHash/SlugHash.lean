import UrlShortener.HighwayHash.Message

/-!
# `generate_slug` on memory

`UrlShorteningConfig` takes HighwayHash as a function from the bytes of the URL to four
words. `generateSlugAt` is `generate_slug` with the call it makes, `HighwayHashT` on
`long_url.data()` and `long_url.size()`; `generateSlugAt_ok` says that this is the same
function with `highwayHash256` for the hash, wherever the URL lies.
-/

namespace UrlShortener.HighwayHash
set_option autoImplicit false

/-- HighwayHash under a key with a 256-bit result. -/
def highwayHash256 (key : HHKey) (msg : Bytes) : HHResult256 := finalize256 ((HHState.reset key).messageState msg)

/-- The service of a configured key. -/
def urlShorteningConfig (alphabet : Bytes) (slugLength : UInt8) (highwayhashKey : HHKey) : UrlShorteningConfig :=
  ⟨slugLength, alphabet, highwayHash256 highwayhashKey⟩

/-- `generate_slug` on a URL in memory. -/
def generateSlugAt (alphabet : Bytes) (slugLength : UInt8) (highwayhashKey : HHKey) (dst : Bytes) (longUrl : CharPtr)
    (size : Nat) (nthTry : UInt8) : Except Fault (Except Undefined (Bool × Bytes)) := do
  let result ← highwayHashT finalize256 (.reset highwayhashKey) longUrl size
  return (slugTries alphabet.length slugLength.toNat nthTry.toNat ⟨result, 0, dst⟩).map fun r => (r.1, r.2.dst)

/-- **The hash parameter is HighwayHash**: on any memory that holds the URL, `generate_slug`
reads the URL's bytes only and gives what the model gives for them. -/
theorem generateSlugAt_ok (alphabet : Bytes) (slugLength : UInt8) (highwayhashKey : HHKey) (dst : Bytes)
    {memory : CharPtr} {longUrl : Bytes} (holds : memory.Holds longUrl) (nthTry : UInt8) :
    generateSlugAt alphabet slugLength highwayhashKey dst memory longUrl.length nthTry =
      .ok ((urlShorteningConfig alphabet slugLength highwayhashKey).generateSlug dst longUrl nthTry) := by
  simp only [generateSlugAt, highwayHashT_ok finalize256 _ holds, bind, Except.bind]
  rfl

/-- A URL between other bytes, seven characters of the first try. -/
theorem generateSlugAt_ok_between :
    generateSlugAt alphabet 7 #v[1, 2, 3, 4] [] ((CharPtr.toBytes ([0x22] ++ (bytes "https://example.com/a" ++ [0x22]))).add 1)
        21 1 =
      .ok ((urlShorteningConfig alphabet 7 #v[1, 2, 3, 4]).generateSlug [] (bytes "https://example.com/a") 1) := by
  have holds := (CharPtr.toBytes_holds ([0x22] ++ (bytes "https://example.com/a" ++ [0x22]))).right.left
  have length : (bytes "https://example.com/a").length = 21 := by decide
  have slug := generateSlugAt_ok alphabet 7 #v[1, 2, 3, 4] [] holds 1
  rwa [length] at slug

end UrlShortener.HighwayHash
