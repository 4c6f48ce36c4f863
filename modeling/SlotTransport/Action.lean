/-
Actions: what a process does with something of its own on the host that it
shares with others. An action changes both, also where it fails.
-/
import SlotTransport.Host

namespace SlotTransport

/-- An action on a `σ` and its host, with an answer in `α` or an error in
`ε`. -/
abbrev Action (σ ε α : Type) : Type :=
  ExceptT ε (StateM (σ × Host)) α

namespace Action

variable {σ τ ε φ α : Type}

/-- The action of a function that says what comes of everything. -/
def of (f : σ → Host → Except ε α × σ × Host) : Action σ ε α :=
  ExceptT.mk fun (own, host) => f own host

/-- What comes of an action. -/
def on (action : Action σ ε α) (own : σ) (host : Host) : Except ε α × σ × Host :=
  ExceptT.run action (own, host)

@[simp] theorem on_of (f : σ → Host → Except ε α × σ × Host) (own : σ) (host : Host) :
    (of f).on own host = f own host :=
  rfl

/-- The thing of one's own. -/
def own : Action σ ε σ :=
  of fun s host => (.ok s, s, host)

/-- Asks something without changing anything. -/
def ask (question : σ → Host → α) : Action σ ε α :=
  of fun s host => (.ok (question s host), s, host)

/-- Changes the thing of one's own. -/
def change (f : σ → σ) : Action σ ε Unit :=
  of fun s host => (.ok (), f s, host)

def count (f : Statistics.Registry → Statistics.Registry) : Action σ ε Unit :=
  of fun s host => (.ok (), s, { host with registry := f host.registry })

/-- An action on a part of something, its errors seen from the whole. -/
def within (part : τ → σ) (withPart : τ → σ → τ) (wrap : ε → φ) (action : Action σ ε α) :
    Action τ φ α :=
  of fun whole host =>
    let (answer, s, host) := action.on (part whole) host
    (answer.mapError wrap, withPart whole s, host)

/-- The action whether or not it fails; what it did stays done. -/
def regardless (action : Action σ ε α) : Action σ φ Unit :=
  of fun s host => (.ok (), (action.on s host).2)

end Action

end SlotTransport
