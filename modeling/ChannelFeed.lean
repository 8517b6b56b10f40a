import ChannelFeed.Bus
import ChannelFeed.Charge.Decoder
import ChannelFeed.Endpoint
import ChannelFeed.Panel.Basic
import ChannelFeed.Session.Bench
import ChannelFeed.Session.Pair
import ChannelFeed.Site.Console
import ChannelFeed.Proofs.Ordered.Entries
import ChannelFeed.Proofs.Registry.Sound
import ChannelFeed.Proofs.Registry.Version
import ChannelFeed.Proofs.Registry.Book
import ChannelFeed.Proofs.Registry.Watched
import ChannelFeed.Proofs.Session.Frame
import ChannelFeed.Proofs.Session.Moves
import ChannelFeed.Proofs.Session.Wired
import ChannelFeed.Proofs.Session.Asked
import ChannelFeed.Proofs.Session.Answers
import ChannelFeed.Proofs.Session.Budget
import ChannelFeed.Proofs.Session.Requests
import ChannelFeed.Proofs.Session.Stream
import ChannelFeed.Proofs.Edge.Handover
import ChannelFeed.Proofs.Panel.Turn
import ChannelFeed.Proofs.Panel.Acts
import ChannelFeed.Proofs.Panel.Exact
import ChannelFeed.Proofs.Panel.Answered
import ChannelFeed.Proofs.Panel.Fuel
import ChannelFeed.Proofs.Panel.Spared
import ChannelFeed.Proofs.Session.Rejections
import ChannelFeed.Proofs.Session.Silence
import ChannelFeed.Proofs.Session.Deadline
import ChannelFeed.Proofs.Session.Numbering
import ChannelFeed.Proofs.Session.Inert
import ChannelFeed.Proofs.Wire.Reported
import ChannelFeed.Proofs.Session.Orders
import ChannelFeed.Proofs.Site.Agreed
import ChannelFeed.Proofs.Site.Hush
import ChannelFeed.Proofs.Site.Operated
import ChannelFeed.Proofs.Edge.Waiting
import ChannelFeed.Proofs.Edge.Debounce
import ChannelFeed.Proofs.Wire.Scalar
import ChannelFeed.Proofs.Wire.Kinds
import ChannelFeed.Proofs.Wire.Entries
import ChannelFeed.Proofs.Wire.Spelling
import ChannelFeed.Proofs.Wire.Requested
import ChannelFeed.Proofs.Generation.LastWord
import ChannelFeed.Proofs.Wire.Integers
import ChannelFeed.Proofs.View.Accessors
import ChannelFeed.Proofs.Charge.Declared
import ChannelFeed.Proofs.Charge.Coherent
import ChannelFeed.Proofs.Charge.Floated
import ChannelFeed.Proofs.Bus.Listener
import ChannelFeed.Proofs.Endpoint.Broker
