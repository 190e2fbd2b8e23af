import UrlShortener.Bytes
import UrlShortener.Logic.AtomicStore

/-!
# `db.cc`: the database of shortened URLs

RocksDB is an atomic map from slugs to long URLs: `rocksdb_->Get` and
`rocksdb_->Put` are the two operations of an `AtomicStore.Prog`, and a failed
one reports a status and leaves the map unchanged. The wrapper translates the
status.
-/

namespace UrlShortener
set_option autoImplicit false
open AtomicStore

/-- The statuses other than `OK` and `NotFound`. -/
inductive RocksFailure where
  | tryAgain
  | ioError
  | other
  deriving DecidableEq, Repr

inductive UrlShorteningDbError where
  | notFound
  | tryAgain
  | ioError
  | internalRocksDbError
  deriving DecidableEq, Repr

/-- The stored slugs. -/
abbrev UrlStore := Store Bytes Bytes

/-- Code that talks to the database. -/
abbrev DbProg := Prog Bytes Bytes RocksFailure

def RocksFailure.toDbError : RocksFailure → UrlShorteningDbError
  | .tryAgain => .tryAgain
  | .ioError => .ioError
  | .other => .internalRocksDbError

/-- `ShortenedUrlsDatabase::put`: no value when the write went through. -/
def ShortenedUrlsDatabase.put (shortenedUrl fullUrl : Bytes) : DbProg (Option UrlShorteningDbError) :=
  .put shortenedUrl fullUrl fun
    | .ok () => .ret none
    | .error e => .ret (some e.toDbError)

/-- `ShortenedUrlsDatabase::get`. -/
def ShortenedUrlsDatabase.get (shortenedUrl : Bytes) : DbProg (Except UrlShorteningDbError Bytes) :=
  .get shortenedUrl fun
    | .ok (some v) => .ret (.ok v)
    | .ok none => .ret (.error .notFound)
    | .error e => .ret (.error e.toDbError)

/-- `ShortenedUrlsDatabase::get_fast`: whether the read went through, and the
buffer after it. -/
def ShortenedUrlsDatabase.getFast (buf shortUrl : Bytes) : DbProg (Bool × Bytes) :=
  .get shortUrl fun
    | .ok (some v) => .ret (true, v)
    | .ok none => .ret (false, buf)
    | .error _ => .ret (false, buf)

end UrlShortener
