import WebrtcEchoes.Lib.Machine
import WebrtcEchoes.Lib.Link
import WebrtcEchoes.Lib.EchoTest
import WebrtcEchoes.Lib.Completion
import WebrtcEchoes.Lib.Lines
import WebrtcEchoes.Lib.Relay
import WebrtcEchoes.Lib.Utf8
import WebrtcEchoes.Lib.Json
import WebrtcEchoes.Lib.Siblings
import WebrtcEchoes.Lib.Forest
import WebrtcEchoes.PeerStates
import WebrtcEchoes.DataChannel
import WebrtcEchoes.Channels
import WebrtcEchoes.EmbedIO
import WebrtcEchoes.Rtp
import WebrtcEchoes.Actions.Collate
import WebrtcEchoes.Actions.Workflow
import WebrtcEchoes.Actions.Readme
import WebrtcEchoes.Actions.Publication
import WebrtcEchoes.Aiortc.Server
import WebrtcEchoes.Gstreamer.Server
import WebrtcEchoes.Gstreamer.Handler
import WebrtcEchoes.Gstreamer.CJson
import WebrtcEchoes.Gstreamer.PrintBuffer
import WebrtcEchoes.Gstreamer.ItemMemory
import WebrtcEchoes.Gstreamer.ItemForest
import WebrtcEchoes.Gstreamer.ItemCalls
import WebrtcEchoes.Gstreamer.AnswerMemory
import WebrtcEchoes.Html.Index
import WebrtcEchoes.Janus.Gateway
import WebrtcEchoes.Kurento.Server
import WebrtcEchoes.Libdatachannel.Client
import WebrtcEchoes.Libdatachannel.Arguments
import WebrtcEchoes.Libdatachannel.Echo
import WebrtcEchoes.Libwebrtc.Json
import WebrtcEchoes.Libwebrtc.PcFactory
import WebrtcEchoes.Libwebrtc.HttpSimpleServer
import WebrtcEchoes.Libwebrtc.Handoff
import WebrtcEchoes.Pion.Server
import WebrtcEchoes.Pion.Client
import WebrtcEchoes.Pion.Echo
import WebrtcEchoes.Pion.Process
import WebrtcEchoes.Sipsorcery.Client
import WebrtcEchoes.Sipsorcery.Server
import WebrtcEchoes.Sipsorcery.Timeouts
import WebrtcEchoes.Sipsorcery.Process
import WebrtcEchoes.Sipsorcery.Echo
import WebrtcEchoes.WebrtcRs.Client
import WebrtcEchoes.WebrtcRs.Server
import WebrtcEchoes.WebrtcRs.Echo
import WebrtcEchoes.Werift.Client
import WebrtcEchoes.Werift.Process
import WebrtcEchoes.Werift.Echo
import WebrtcEchoes.Interop
import WebrtcEchoes.Launch
import WebrtcEchoes.Proofs.Rtp
import WebrtcEchoes.Proofs.Actions.Collate
import WebrtcEchoes.Proofs.Actions.Workflow
import WebrtcEchoes.Proofs.Actions.ResultsTable
import WebrtcEchoes.Proofs.Actions.PrintedTable
import WebrtcEchoes.Proofs.Actions.Readme
import WebrtcEchoes.Proofs.Actions.Publication
import WebrtcEchoes.Proofs.Pion.Server
import WebrtcEchoes.Proofs.Pion.Client
import WebrtcEchoes.Proofs.Pion.Echo
import WebrtcEchoes.Proofs.Pion.Process
import WebrtcEchoes.Proofs.WebrtcRs.Client
import WebrtcEchoes.Proofs.WebrtcRs.Server
import WebrtcEchoes.Proofs.WebrtcRs.Echo
import WebrtcEchoes.Proofs.Aiortc.Server
import WebrtcEchoes.Proofs.Gstreamer.Server
import WebrtcEchoes.Proofs.Gstreamer.Handler
import WebrtcEchoes.Proofs.Gstreamer.CJson.Strings
import WebrtcEchoes.Proofs.Gstreamer.CJson.Documents
import WebrtcEchoes.Proofs.Gstreamer.CJson.Safety
import WebrtcEchoes.Proofs.Gstreamer.CJson.Text
import WebrtcEchoes.Proofs.Gstreamer.CJson.PrintBuffer
import WebrtcEchoes.Proofs.Gstreamer.CJson.Print
import WebrtcEchoes.Proofs.Gstreamer.CJson.Offer
import WebrtcEchoes.Proofs.Gstreamer.CJson.Memory
import WebrtcEchoes.Proofs.Gstreamer.CJson.Delete
import WebrtcEchoes.Proofs.Gstreamer.CJson.Create
import WebrtcEchoes.Proofs.Gstreamer.CJson.Name
import WebrtcEchoes.Proofs.Gstreamer.CJson.Lookup
import WebrtcEchoes.Proofs.Gstreamer.CJson.Calls
import WebrtcEchoes.Proofs.Gstreamer.CJson.Rename
import WebrtcEchoes.Proofs.Gstreamer.CJson.Sessions
import WebrtcEchoes.Proofs.Gstreamer.AnswerMemory
import WebrtcEchoes.Proofs.Html.Index
import WebrtcEchoes.Proofs.Libwebrtc.PcFactory
import WebrtcEchoes.Proofs.Libwebrtc.HttpSimpleServer
import WebrtcEchoes.Proofs.Libwebrtc.Handoff
import WebrtcEchoes.Proofs.Libwebrtc.Lifetime
import WebrtcEchoes.Proofs.Libwebrtc.AnswerMeaning
import WebrtcEchoes.Proofs.Janus.Gateway
import WebrtcEchoes.Proofs.Janus.Answer
import WebrtcEchoes.Proofs.Janus.Lifecycle
import WebrtcEchoes.Proofs.Libdatachannel.Client
import WebrtcEchoes.Proofs.Libdatachannel.Arguments
import WebrtcEchoes.Proofs.DataChannelClients
import WebrtcEchoes.Proofs.DataChannelServers
import WebrtcEchoes.Proofs.Launch
import WebrtcEchoes.Proofs.Sipsorcery.Timeouts
import WebrtcEchoes.Proofs.Sipsorcery.Process
import WebrtcEchoes.Proofs.Interop
import WebrtcEchoes.Proofs.Actions.EchoBadges
import WebrtcEchoes.Proofs.FailedOffers
import WebrtcEchoes.Proofs.OfferStatus
import WebrtcEchoes.Proofs.EchoServers
