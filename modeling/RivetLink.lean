import RivetLink.Agent.CaptureSize
import RivetLink.Agent.ConsentGate
import RivetLink.Agent.Downloads
import RivetLink.Agent.HostBooks
import RivetLink.Agent.ListingAgreement
import RivetLink.Agent.ResponseMatching
import RivetLink.Agent.StreamPermissions
import RivetLink.Agent.StreamSeparation
import RivetLink.Agent.TileStream
import RivetLink.Agent.UploadAcceptance
import RivetLink.Agent.VideoGate
import RivetLink.Agent.ViewOnly
import RivetLink.Agent.WorkerSupersession
import RivetLink.Protocol.PacketJson
import RivetLink.Sdk.HostScripts
import RivetLink.Sdk.NoDowngrade
import RivetLink.Server.CloseNotices
import RivetLink.Server.ConnectionMap
import RivetLink.Server.LoginLockout
import RivetLink.Server.RateLimiter
import RivetLink.Server.Registration
import RivetLink.Server.SessionLimits
import RivetLink.Server.TenantIsolation
import RivetLink.Server.TheftRevocation
import RivetLink.System.ScreenshotChunks
import RivetLink.System.TunnelFidelity
