import Sahay.Server.Schema

/-!
# Rows, but for what a run draws

Two runs of the same operations read different clocks and draw different seeds.  What
is left of a row without them is what the runs can be compared by.
-/

namespace Sahay

def User.untimed (user : User) : User := { user with avatarSeed := "", deletedAt := none }

def InventoryItem.untimed (item : InventoryItem) : InventoryItem := { item with updatedAt := 0 }

def Request.untimed (r : Request) : Request := { r with closedAt := none }

def MatchOffer.untimed (o : MatchOffer) : MatchOffer := { o with respondedAt := none }

def Match.untimed (m : Match) : Match := { m with closedAt := none }

def Conversation.untimed (c : Conversation) : Conversation := { c with expiresAt := none }

def Message.untimed (message : Message) : Message := { message with createdAt := 0 }

def RequestTransition.untimed (entry : RequestTransition) : RequestTransition :=
  { entry with createdAt := 0 }

def ReliabilityStats.untimed (stats : ReliabilityStats) : ReliabilityStats :=
  { stats with updatedAt := 0 }

end Sahay
