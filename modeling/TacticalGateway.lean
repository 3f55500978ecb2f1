import TacticalGateway.Schema.Codec
import TacticalGateway.Gateway.Linkage
import TacticalGateway.Listeners.ProtobufFraming
import TacticalGateway.Listeners.XmlSegmentation
import TacticalGateway.Opstore.Accounting
import TacticalGateway.Opstore.Supersession
import TacticalGateway.Opstore.History
import TacticalGateway.Query.Pagination
import TacticalGateway.Normalizers.XmlFields
import TacticalGateway.Normalizers.XmlLoss
import TacticalGateway.Normalizers.PbRoundTrip
import TacticalGateway.Query.Validity
import TacticalGateway.Gateway.Pickup
import TacticalGateway.Listeners.RawCapture
import TacticalGateway.Opstore.Audit
import TacticalGateway.Ovl.Lossless
import TacticalGateway.Ovl.Contract
import TacticalGateway.Ovl.Supersession
import TacticalGateway.Kmz.Agreement
import TacticalGateway.Kmz.Contract
import TacticalGateway.Kmz.Delivery
import TacticalGateway.Routes.Isolation
import TacticalGateway.Routes.Valve
import TacticalGateway.Listeners.XmlDelimiting
import TacticalGateway.Kmz.Coverage
import TacticalGateway.Kmz.Rings
import TacticalGateway.Ovl.Geometry
import TacticalGateway.Routes.Egress
import TacticalGateway.Schema.Geometry
import TacticalGateway.Lib.Places
import TacticalGateway.Normalizers.DetailContent
import TacticalGateway.Normalizers.DetailStable
import TacticalGateway.Kmz.Suspected
import TacticalGateway.Kmz.Provenance
import TacticalGateway.Opstore.Wkt
import TacticalGateway.Opstore.Homogeneous
import TacticalGateway.Lib.BitFields
import TacticalGateway.Schema.Uuid7
import TacticalGateway.Listeners.Conservation
import TacticalGateway.Lib.LongestPrefix
import TacticalGateway.Ovl.FunctionCode
import TacticalGateway.Kmz.WholeWords
import TacticalGateway.Kmz.TableOrder
import TacticalGateway.Gateway.Prechecks
import TacticalGateway.Gateway.Installed
import TacticalGateway.Deployment.Delivery
import TacticalGateway.Routes.Links
import TacticalGateway.Opstore.Migrations
import TacticalGateway.Tools.VerifyChain
import TacticalGateway.Query.ReadBack
import TacticalGateway.Routes.XmlLinks
import TacticalGateway.Deployment.Relay
import TacticalGateway.Normalizers.XmlHops
import TacticalGateway.Tools.TcpListener
import TacticalGateway.Normalizers.PbHops
