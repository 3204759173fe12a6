/-! Reports: messages under one heading, numbered from one. -/
namespace Letterbook

structure Report where
  messages : List String
  deriving DecidableEq, Repr, Inhabited

namespace Report

def empty : Report := ⟨[]⟩

def push (r : Report) (message : String) : Report := ⟨r.messages ++ [message]⟩

def size (r : Report) : Nat := r.messages.length

def isEmpty (r : Report) : Bool := r.messages.isEmpty

/-- Messages with their numbers, each on a line of its own; a message may itself have lines. -/
def numbered (first : Nat) : List String → String
  | [] => ""
  | message :: rest => toString first ++ ") " ++ message ++ "\n" ++ numbered (first + 1) rest

/-- The text of a report. -/
def text (r : Report) : String := "Errors\n" ++ numbered 1 r.messages

end Report
end Letterbook
